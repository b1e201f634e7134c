import Mathlib.Algebra.Group.Nat.Defs
import Mathlib.Data.List.Nodup
import SpriteStage.Proofs.Table
import SpriteStage.Sheet

/-!
# Keys and textures of a render sheet

A key glues the name of an asset and the index of a frame together with a dash. As an index has no
dash, the last dash of a key tells the two apart, whatever the name is (`frameKey_inj`).

Textures are numbered in the order in which their keys came (`Numbered`). Adding a frame keeps that,
whether its key is new or not (`Numbered.add`), so that keys with one texture are one key as long as
there are no more of them than numbers (`Numbered.eq_of_texture?`). Adding frames that the sheet has
already changes nothing (`addAll_eq_self`).
-/

set_option autoImplicit false

namespace SpriteStage

/-! ## Keys -/

/-- What follows the last dash is the same for both, and so is what stands before it. -/
theorem append_dash_inj {a b x y : List Char} (hx : '-' ∉ x) (hy : '-' ∉ y)
    (h : a ++ '-' :: x = b ++ '-' :: y) : a = b ∧ x = y := by
  -- if one name went further than the other, there would be a dash among the digits
  rcases List.append_eq_append_iff.1 h with ⟨more, rfl, hmore⟩ | ⟨more, rfl, hmore⟩
  · cases more with
    | nil => simpa using hmore
    | cons c more =>
        obtain ⟨-, rfl⟩ := List.cons.inj hmore
        simp at hx
  · cases more with
    | nil => simpa [eq_comm] using hmore
    | cons c more =>
        obtain ⟨-, rfl⟩ := List.cons.inj hmore
        simp at hy

theorem dash_not_mem_toDigits (n : Nat) : '-' ∉ Nat.toDigits 10 n := by
  intro h
  exact absurd (Nat.isDigit_of_mem_toDigits (by decide) (by decide) h) (by decide)

theorem toList_frameKey (asset : String) (index : Nat) :
    (frameKey asset index).toList = asset.toList ++ '-' :: Nat.toDigits 10 index := by
  rw [← Nat.toList_repr]
  simp [frameKey, toString]

/-- Frames have one key only if they are one frame of one asset. -/
theorem frameKey_inj {a b : String} {i j : Nat} :
    frameKey a i = frameKey b j ↔ a = b ∧ i = j := by
  constructor
  · intro h
    have hlists := congrArg String.toList h
    rw [toList_frameKey, toList_frameKey] at hlists
    obtain ⟨hname, hdigits⟩ :=
      append_dash_inj (dash_not_mem_toDigits i) (dash_not_mem_toDigits j) hlists
    -- the digits give the index back
    have hindex := congrArg (Nat.ofDigitChars 10 · 0) hdigits
    rw [Nat.ofDigitChars_ten_toDigits, Nat.ofDigitChars_ten_toDigits] at hindex
    exact ⟨String.toList_inj.1 hname, hindex⟩
  · rintro ⟨rfl, rfl⟩
    rfl

/-- A name may end like a key itself. -/
example : frameKey "hero-1" 0 ≠ frameKey "hero" 10 := by decide

/-! ## One frame -/

namespace FrameSheet

variable {s : FrameSheet} {key other : String} {size : Size}

theorem texture?_eq_some_iff {t : TextureId} :
    s.texture? key = some t ↔ ∃ size, s.entry? key = some ⟨t, size⟩ := by
  rw [texture?, Option.map_eq_some_iff]
  constructor
  · rintro ⟨⟨t, size⟩, hentry, rfl⟩
    exact ⟨size, hentry⟩
  · rintro ⟨size, hentry⟩
    exact ⟨_, hentry, rfl⟩

theorem contains_eq_false_iff : s.contains key = false ↔ s.entry? key = none := by
  simp [contains]

theorem entries_of_isEmpty (h : s.isEmpty = true) : s.entries.entries = [] := List.isEmpty_iff.1 h

theorem size_of_isEmpty (h : s.isEmpty = true) : s.size = 0 := by
  simp [FrameSheet.size, Table.size, entries_of_isEmpty h]

theorem contains_of_isEmpty (h : s.isEmpty = true) (key : String) : s.contains key = false := by
  simp [contains, entry?, Table.get?, entries_of_isEmpty h]

/-- A key that is added has the size that was given; it keeps its texture, or takes the next. Other
keys stay as they are. -/
theorem entry?_add (s : FrameSheet) (key other : String) (size : Size) :
    entry? (s.add key size) other =
      if other = key then some ⟨(s.texture? key).getD ⟨s.allocator.next⟩, size⟩
      else s.entry? other := by
  unfold add
  cases htexture : s.texture? key with
  | some texture => exact Table.get?_insert _ _ _ _
  | none => exact Table.get?_insert _ _ _ _

theorem entry?_add_self (s : FrameSheet) (key : String) (size : Size) :
    entry? (s.add key size) key = some ⟨(s.texture? key).getD ⟨s.allocator.next⟩, size⟩ := by
  rw [entry?_add, if_pos rfl]

theorem entry?_add_of_ne (h : other ≠ key) : entry? (s.add key size) other = s.entry? other := by
  rw [entry?_add, if_neg h]

/-- Adding a frame as it is changes nothing. -/
theorem add_eq_self {t : TextureId} (h : s.entry? key = some ⟨t, size⟩) : s.add key size = s := by
  have htexture : s.texture? key = some t := texture?_eq_some_iff.2 ⟨size, h⟩
  simp only [add, htexture, Table.insert_eq_self h]

/-! ## The order of the textures -/

theorem contains_entries (s : FrameSheet) (key : String) :
    s.entries.contains key = s.contains key := Table.contains_eq_isSome_get? s.entries key

theorem contains_of_texture? {t : TextureId} (h : s.texture? key = some t) :
    s.contains key = true := by
  obtain ⟨size, hentry⟩ := texture?_eq_some_iff.1 h
  simp [contains, hentry]

theorem contains_of_no_texture? (h : s.texture? key = none) : s.contains key = false := by
  simpa [contains, texture?] using h

/-- The textures of a sheet, in the order in which their keys came. -/
def textures (s : FrameSheet) : List TextureId := s.entries.entries.map fun e => e.2.texture

@[simp] theorem length_textures (s : FrameSheet) : s.textures.length = s.size := by
  simp [textures, FrameSheet.size, Table.size]

/-- A key that is added again keeps its texture. -/
theorem textures_add_of_texture? {t : TextureId} (h : s.texture? key = some t) (size : Size) :
    (s.add key size).textures = s.textures := by
  have hcontains : s.entries.contains key = true := by
    rw [contains_entries, contains_of_texture? h]
  simp only [textures, add, h, Table.entries_insert_of_contains hcontains, List.map_map]
  refine List.map_congr_left ?_
  rintro ⟨name, entry⟩ hmem
  rw [Table.mem_entries_iff] at hmem
  by_cases hname : name = key
  · subst hname
    simpa [texture?, entry?, hmem, eq_comm] using h
  · simp [hname]

/-- A new key takes the next texture. -/
theorem textures_add_of_no_texture? (h : s.texture? key = none) (size : Size) :
    (s.add key size).textures = s.textures ++ [⟨s.allocator.next⟩] := by
  have hcontains : ¬ s.entries.contains key = true := by
    rw [contains_entries, contains_of_no_texture? h]
    decide
  simp [textures, add, h, TextureAllocator.allocate,
    Table.entries_insert_of_not_contains hcontains]

theorem allocator_add_of_texture? {t : TextureId} (h : s.texture? key = some t) (size : Size) :
    (s.add key size).allocator = s.allocator := by
  simp only [add, h]

theorem allocator_add_of_no_texture? (h : s.texture? key = none) (size : Size) :
    (s.add key size).allocator = ⟨s.allocator.next + 1⟩ := by
  simp only [add, h, TextureAllocator.allocate]

/-- A new key makes the sheet longer by one. -/
theorem size_add (s : FrameSheet) (key : String) (size : Size) :
    (s.add key size).size = if s.contains key then s.size else s.size + 1 := by
  rw [← length_textures]
  cases htexture : s.texture? key with
  | some t => rw [textures_add_of_texture? htexture, if_pos (contains_of_texture? htexture),
      length_textures]
  | none => simp [textures_add_of_no_texture? htexture, contains_of_no_texture? htexture]

/-! ## Numbers -/

/-- The texture that is given out after `n` others. -/
def nthTexture (start : UInt32) (n : Nat) : TextureId := ⟨start + UInt32.ofNat n⟩

/-- Textures are numbered from `start` in the order in which their keys came, and the allocator
gives out the number after the last. -/
structure Numbered (start : UInt32) (s : FrameSheet) : Prop where
  /-- The next texture. -/
  next_eq : (⟨s.allocator.next⟩ : TextureId) = nthTexture start s.size
  /-- The textures so far. -/
  textures_eq : s.textures = (List.range s.size).map (nthTexture start)

theorem numbered_of_isEmpty (h : s.isEmpty = true) : Numbered s.allocator.next s := by
  constructor
  · simp [nthTexture, size_of_isEmpty h]
  · simp [textures, size_of_isEmpty h, entries_of_isEmpty h]

/-- The allocator counts in step with the sheet: only a new key makes either of them go on. -/
theorem Numbered.add {start : UInt32} (h : Numbered start s) (key : String) (size : Size) :
    Numbered start (s.add key size) := by
  cases htexture : s.texture? key with
  | some t =>
      have hsize : (s.add key size).size = s.size := by
        rw [size_add, if_pos (contains_of_texture? htexture)]
      constructor
      · rw [allocator_add_of_texture? htexture, hsize, h.next_eq]
      · rw [textures_add_of_texture? htexture, hsize, h.textures_eq]
  | none =>
      have hsize : (s.add key size).size = s.size + 1 := by
        rw [size_add, if_neg (by simp [contains_of_no_texture? htexture])]
      have hnext := TextureId.mk.inj h.next_eq
      constructor
      · rw [allocator_add_of_no_texture? htexture, hsize, nthTexture, UInt32.ofNat_add,
          ← UInt32.add_assoc, ← hnext]
        rfl
      · rw [textures_add_of_no_texture? htexture, hsize, List.range_succ, List.map_append,
          h.textures_eq, h.next_eq]
        rfl

/-- As long as there are no more keys than numbers, keys with one texture are one key. -/
theorem Numbered.eq_of_texture? {start : UInt32} (h : Numbered start s) (hsize : s.size ≤ 2 ^ 32)
    {t : TextureId} (hkey : s.texture? key = some t) (hother : s.texture? other = some t) :
    key = other := by
  have hnodup : s.textures.Nodup := by
    rw [h.textures_eq]
    refine List.Nodup.map_on ?_ List.nodup_range
    intro m hm n hn heq
    rw [List.mem_range] at hm hn
    have hwords := congrArg UInt32.toNat ((UInt32.add_right_inj start).1 (TextureId.mk.inj heq))
    rwa [UInt32.toNat_ofNat', UInt32.toNat_ofNat', Nat.mod_eq_of_lt (by omega),
      Nat.mod_eq_of_lt (by omega)] at hwords
  obtain ⟨size, hentry⟩ := texture?_eq_some_iff.1 hkey
  obtain ⟨size', hentry'⟩ := texture?_eq_some_iff.1 hother
  have hsame := List.inj_on_of_nodup_map hnodup ((s.entries.mem_entries_iff _ _).2 hentry)
    ((s.entries.mem_entries_iff _ _).2 hentry') rfl
  exact congrArg Prod.fst hsame

/-! ## Many frames -/

/-- Adds frames, each with its key and its size, one after the other. -/
def addAll (s : FrameSheet) (frames : List (String × Size)) : FrameSheet :=
  frames.foldl (fun s frame => s.add frame.1 frame.2) s

@[simp] theorem addAll_nil (s : FrameSheet) : s.addAll [] = s := rfl

@[simp] theorem addAll_cons (s : FrameSheet) (frame : String × Size)
    (frames : List (String × Size)) :
    s.addAll (frame :: frames) = (s.add frame.1 frame.2).addAll frames := rfl

theorem addAll_append (s : FrameSheet) (frames more : List (String × Size)) :
    s.addAll (frames ++ more) = (s.addAll frames).addAll more :=
  List.foldl_append

theorem Numbered.addAll {start : UInt32} (h : Numbered start s) (frames : List (String × Size)) :
    Numbered start (s.addAll frames) := by
  induction frames generalizing s with
  | nil => exact h
  | cons frame frames ih => exact ih (h.add frame.1 frame.2)

/-- Adding frames as they are changes nothing. -/
theorem addAll_eq_self {frames : List (String × Size)}
    (h : ∀ frame ∈ frames, ∃ t, s.entry? frame.1 = some ⟨t, frame.2⟩) : s.addAll frames = s := by
  induction frames with
  | nil => rfl
  | cons frame frames ih =>
      obtain ⟨t, hentry⟩ := h frame List.mem_cons_self
      rw [addAll_cons, add_eq_self hentry]
      exact ih fun other hother => h other (List.mem_cons_of_mem _ hother)

theorem entry?_addAll_of_not_mem {frames : List (String × Size)}
    (h : key ∉ frames.map Prod.fst) : entry? (s.addAll frames) key = s.entry? key := by
  induction frames generalizing s with
  | nil => rfl
  | cons frame frames ih =>
      rw [List.map_cons, List.mem_cons, not_or] at h
      rw [addAll_cons, ih h.2, entry?_add_of_ne h.1]

/-- Each of the frames is there afterwards, if no other has its key. -/
theorem entry?_addAll_of_mem {frames : List (String × Size)}
    (hnodup : (frames.map Prod.fst).Nodup) (h : (key, size) ∈ frames) :
    ∃ t, entry? (s.addAll frames) key = some ⟨t, size⟩ := by
  induction frames generalizing s with
  | nil => cases h
  | cons frame frames ih =>
      rw [List.map_cons, List.nodup_cons] at hnodup
      rw [addAll_cons]
      rcases List.mem_cons.1 h with rfl | hmem
      · rw [entry?_addAll_of_not_mem hnodup.1]
        exact ⟨_, entry?_add_self s key size⟩
      · exact ih hnodup.2 hmem

/-- Frames with new keys make the sheet longer by their number. -/
theorem size_addAll {frames : List (String × Size)} (hnodup : (frames.map Prod.fst).Nodup)
    (hnew : ∀ frame ∈ frames, s.contains frame.1 = false) :
    (s.addAll frames).size = s.size + frames.length := by
  induction frames generalizing s with
  | nil => rfl
  | cons frame frames ih =>
      rw [List.map_cons, List.nodup_cons] at hnodup
      have hfirst := hnew frame List.mem_cons_self
      rw [addAll_cons, ih hnodup.2, size_add, if_neg (by simp [hfirst]), List.length_cons]
      · omega
      · intro other hother
        have hne : other.1 ≠ frame.1 := fun heq =>
          hnodup.1 (heq ▸ List.mem_map_of_mem hother)
        rw [contains_eq_false_iff, entry?_add_of_ne hne, ← contains_eq_false_iff]
        exact hnew other (List.mem_cons_of_mem _ hother)

end FrameSheet

end SpriteStage
