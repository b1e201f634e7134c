import Mathlib.Data.List.Induction
import SpriteStage.Proofs.Sheet

/-!
# The history of a render sheet

A sheet answers two calls, in any order: a frame is added, or every frame is dropped. What a sheet
knows are the frames that were added since everything was dropped last (`sinceClear`), and it knows
them in a certain form (`Recorded`): each key once, in the order of the first additions, with the
size of the last addition, and numbered one after the other. A call keeps that form
(`Recorded.add`), and so does a history of calls (`recorded_obeyAll`).

The numbers of textures are words, and after the last word comes zero again. As long as no more keys
than words are in force, the words that were given out are different, and the next one is above all
of them or all of them are in use (`shows_obeyAll`).
-/

set_option autoImplicit false

namespace SpriteStage

/-! ## Frames that were added -/

/-- The keys of frames, each once, in the order in which they were first added. -/
def differentKeys (frames : List (String × Size)) : List String :=
  (frames.map Prod.fst).eraseDups

/-- The size that a key was last added with. -/
def latestSize? (frames : List (String × Size)) (key : String) : Option Size :=
  frames.reverse.lookup key

/-- A key that was added before is no new key. -/
theorem differentKeys_concat (frames : List (String × Size)) (key : String) (size : Size) :
    differentKeys (frames ++ [(key, size)]) =
      if key ∈ differentKeys frames then differentKeys frames
      else differentKeys frames ++ [key] := by
  have hmem : key ∈ differentKeys frames ↔ key ∈ frames.map Prod.fst := List.mem_eraseDups
  simp only [hmem]
  rw [differentKeys, differentKeys, List.map_append, List.eraseDups_append]
  by_cases hkey : key ∈ frames.map Prod.fst
  · rw [if_pos hkey]
    simp [List.removeAll, hkey]
  · rw [if_neg hkey]
    simp [List.removeAll, List.eraseDups_cons, hkey]

theorem latestSize?_concat (frames : List (String × Size)) (key other : String) (size : Size) :
    latestSize? (frames ++ [(key, size)]) other =
      if other = key then some size else latestSize? frames other := by
  rw [latestSize?, latestSize?, List.reverse_append, List.reverse_singleton]
  by_cases hother : other = key
  · simp [hother]
  · simp [List.lookup_cons, beq_eq_false_iff_ne.2 hother, hother]

/-! ## Calls -/

/-- What can be asked of a sheet. -/
inductive SheetCall where
  /-- To add a frame of the given size. -/
  | add (key : String) (size : Size)
  /-- To drop every frame. -/
  | clear
deriving DecidableEq

/-- The frames in force after a call. -/
def SheetCall.recorded (frames : List (String × Size)) : SheetCall → List (String × Size)
  | .add key size => frames ++ [(key, size)]
  | .clear => []

/-- The frames that were added since every frame was dropped last, oldest first. -/
def sinceClear (calls : List SheetCall) : List (String × Size) :=
  calls.foldl SheetCall.recorded []

/-- At no moment more than `limit` different keys are in force. -/
def KeysWithin (limit : Nat) (calls : List SheetCall) : Prop :=
  ∀ before, before <+: calls → (differentKeys (sinceClear before)).length ≤ limit

theorem length_differentKeys_le (frames : List (String × Size)) :
    (differentKeys frames).length ≤ frames.length := by
  induction frames using List.reverseRecOn with
  | nil => exact Nat.le_refl 0
  | append_singleton frames frame ih =>
      rw [differentKeys_concat, List.length_append]
      split
      · omega
      · simpa using ih

theorem length_recorded_le (frames : List (String × Size)) (calls : List SheetCall) :
    (calls.foldl SheetCall.recorded frames).length ≤ frames.length + calls.length := by
  induction calls generalizing frames with
  | nil => exact Nat.le_refl _
  | cons call calls ih =>
      have hfirst : (call.recorded frames).length ≤ frames.length + 1 := by
        cases call with
        | add key size => simp [SheetCall.recorded]
        | clear => simp [SheetCall.recorded]
      have hrest := ih (call.recorded frames)
      rw [List.foldl_cons, List.length_cons]
      omega

/-- There are no more keys than calls. -/
theorem keysWithin_of_length_le {limit : Nat} {calls : List SheetCall}
    (h : calls.length ≤ limit) : KeysWithin limit calls := by
  intro before hbefore
  have hkeys := length_differentKeys_le (sinceClear before)
  have hframes : (sinceClear before).length ≤ 0 + before.length := length_recorded_le [] before
  have hcalls := hbefore.length_le
  omega

namespace FrameSheet

variable {s : FrameSheet} {key other : String} {frames : List (String × Size)}

/-- The sheet after a call. -/
def obey (s : FrameSheet) : SheetCall → FrameSheet
  | .add key size => s.add key size
  | .clear => s.clear

/-- The sheet after calls. -/
def obeyAll (s : FrameSheet) (calls : List SheetCall) : FrameSheet := calls.foldl obey s

theorem obeyAll_append (s : FrameSheet) (calls more : List SheetCall) :
    s.obeyAll (calls ++ more) = (s.obeyAll calls).obeyAll more :=
  List.foldl_append

/-! ## What a sheet knows -/

theorem names_add (s : FrameSheet) (key : String) (size : Size) :
    (s.add key size).entries.names =
      if key ∈ s.entries.names then s.entries.names else s.entries.names ++ [key] := by
  have hinsert := fun entry => s.entries.names_insert key entry
  simp only [Table.contains_iff] at hinsert
  unfold add
  cases s.texture? key with
  | some texture => exact hinsert _
  | none => exact hinsert _

/-- The sheet has recorded the frames, oldest first. -/
structure Recorded (s : FrameSheet) (frames : List (String × Size)) : Prop where
  /-- Keys are kept in the order in which they were first added. -/
  names_eq : s.entries.names = differentKeys frames
  /-- A key has the size that it was last added with. -/
  size?_eq : ∀ key, (s.entry? key).map SheetEntry.size = latestSize? frames key
  /-- Textures are numbered from zero. -/
  numbered : Numbered 0 s

theorem recorded_empty : Recorded {} [] :=
  ⟨rfl, fun _ => rfl, numbered_of_isEmpty (s := {}) rfl⟩

/-- A key that is added again keeps its place and takes the new size. -/
theorem Recorded.add (h : Recorded s frames) (key : String) (size : Size) :
    Recorded (s.add key size) (frames ++ [(key, size)]) := by
  refine ⟨?_, ?_, h.numbered.add key size⟩
  · rw [names_add, differentKeys_concat, h.names_eq]
  · intro other
    rw [entry?_add, latestSize?_concat, ← h.size?_eq]
    by_cases hother : other = key
    · rw [if_pos hother, if_pos hother]
      rfl
    · rw [if_neg hother, if_neg hother]

theorem Recorded.obey (h : Recorded s frames) (call : SheetCall) :
    Recorded (s.obey call) (call.recorded frames) := by
  cases call with
  | add key size => exact h.add key size
  | clear => exact recorded_empty

theorem Recorded.obeyAll (h : Recorded s frames) (calls : List SheetCall) :
    Recorded (s.obeyAll calls) (calls.foldl SheetCall.recorded frames) := by
  induction calls generalizing s frames with
  | nil => exact h
  | cons call calls ih => exact ih (h.obey call)

theorem recorded_obeyAll (calls : List SheetCall) :
    Recorded (FrameSheet.obeyAll {} calls) (sinceClear calls) :=
  recorded_empty.obeyAll calls

theorem length_names (s : FrameSheet) : s.entries.names.length = s.size := by
  simp [Table.names, FrameSheet.size, Table.size]

theorem Recorded.size_eq (h : Recorded s frames) : s.size = (differentKeys frames).length := by
  rw [← length_names, h.names_eq]

/-! ## Textures -/

theorem mem_names_of_texture? {t : TextureId} (h : s.texture? key = some t) :
    key ∈ s.entries.names := by
  rw [← Table.contains_iff, contains_entries]
  exact contains_of_texture? h

/-- A key has the texture of its place. -/
theorem Numbered.texture?_eq {start : UInt32} (h : Numbered start s)
    (hkey : key ∈ s.entries.names) :
    s.texture? key = some (nthTexture start (s.entries.names.idxOf key)) := by
  have hplace := List.idxOf_lt_length_of_mem hkey
  have hname := List.getElem_idxOf hplace
  generalize s.entries.names.idxOf key = place at hplace hname
  rw [length_names] at hplace
  -- names and textures are columns of the same entries
  have hentry : place < s.entries.entries.length := hplace
  have hcolumn : place < s.textures.length := by rwa [length_textures]
  have hrow : s.entries.entries[place].1 = key := by
    simpa [Table.names] using hname
  have htexture : s.entries.entries[place].2.texture = nthTexture start place := by
    have htextures : s.textures[place] = nthTexture start place := by
      simp [h.textures_eq]
    simpa [textures] using htextures
  have hget : s.entry? key = some s.entries.entries[place].2 := by
    refine (s.entries.mem_entries_iff key _).1 ?_
    rw [← hrow]
    exact List.getElem_mem hentry
  rw [texture?, hget, Option.map_some, htexture]

/-- A key that is added, or added again, takes no texture from another. -/
theorem texture?_add_of_texture? {t : TextureId} (h : s.texture? other = some t) (key : String)
    (size : Size) : texture? (s.add key size) other = some t := by
  rw [texture?, entry?_add]
  by_cases hother : other = key
  · rw [if_pos hother, ← hother, h]
    rfl
  · rw [if_neg hother]
    exact h

/-- As long as nothing is dropped, a key keeps its texture. -/
theorem texture?_obeyAll {t : TextureId} {calls : List SheetCall} (hcalls : .clear ∉ calls)
    (h : s.texture? key = some t) : (s.obeyAll calls).texture? key = some t := by
  induction calls generalizing s with
  | nil => exact h
  | cons call calls ih =>
      rw [List.mem_cons, not_or] at hcalls
      refine ih hcalls.2 ?_
      cases call with
      | add added size => exact texture?_add_of_texture? h added size
      | clear => exact absurd rfl hcalls.1

theorem number_nthTexture {n : Nat} (h : n < 2 ^ 32) : (nthTexture 0 n).number.toNat = n := by
  rw [nthTexture, UInt32.zero_add]
  exact UInt32.toNat_ofNat_of_lt' h

/-- If there are fewer keys than words, the next texture is above all that are in use. -/
theorem Numbered.lt_next (h : Numbered 0 s) (hsize : s.size < 2 ^ 32) {t : TextureId}
    (ht : s.texture? key = some t) : t.number < s.allocator.next := by
  have hkey := mem_names_of_texture? ht
  have hplace := List.idxOf_lt_length_of_mem hkey
  rw [length_names] at hplace
  rw [h.texture?_eq hkey, Option.some.injEq] at ht
  have hnext : s.allocator.next = (nthTexture 0 s.size).number :=
    congrArg TextureId.number h.next_eq
  -- no number wraps: a key has the number of its place, and the next number is that of the end
  rw [UInt32.lt_iff_toNat_lt, ← ht, hnext, number_nthTexture (by omega), number_nthTexture hsize]
  exact hplace

/-- If there are as many keys as words, every texture is in use. -/
theorem Numbered.all_used (h : Numbered 0 s) (hsize : s.size = 2 ^ 32) (t : TextureId) :
    ∃ key, s.texture? key = some t := by
  have hplace : t.number.toNat < s.entries.names.length := by
    rw [length_names, hsize]
    exact t.number.toNat_lt
  have hnodup : s.entries.names.Nodup := s.entries.names_nodup
  -- the key at the place that the texture is numbered by
  refine ⟨s.entries.names[t.number.toNat], ?_⟩
  rw [h.texture?_eq (List.getElem_mem hplace), hnodup.idxOf_getElem, nthTexture, UInt32.zero_add,
    UInt32.ofNat_toNat]

/-- What a sheet shows of the frames that were added to it since everything was dropped. -/
structure Shows (s : FrameSheet) (frames : List (String × Size)) : Prop where
  /-- There are as many entries as different keys. -/
  size_eq : s.size = (differentKeys frames).length
  /-- A key has the size that it was last added with; a key that was not added has none. -/
  size?_eq : ∀ key, (s.entry? key).map SheetEntry.size = latestSize? frames key
  /-- A key has the texture whose number is its place among the first additions. -/
  texture?_eq : ∀ key ∈ differentKeys frames,
    s.texture? key = some (nthTexture 0 ((differentKeys frames).idxOf key))
  /-- Different keys have different textures. -/
  eq_of_texture? : ∀ key other t,
    s.texture? key = some t → s.texture? other = some t → key = other
  /-- The next number is above all that are in use, or it is zero again and all are in use. -/
  next : (∀ key t, s.texture? key = some t → t.number < s.allocator.next) ∨
    s.allocator.next = 0 ∧ ∀ t, ∃ key, s.texture? key = some t

theorem Recorded.shows (h : Recorded s frames) (hkeys : (differentKeys frames).length ≤ 2 ^ 32) :
    s.Shows frames := by
  have hsize : s.size ≤ 2 ^ 32 := h.size_eq ▸ hkeys
  refine ⟨h.size_eq, h.size?_eq, ?_, ?_, ?_⟩
  · intro key hkey
    rw [← h.names_eq] at hkey ⊢
    exact h.numbered.texture?_eq hkey
  · exact fun key other t => h.numbered.eq_of_texture? hsize
  · -- the numbers wrap once there are as many keys as words
    rcases Nat.lt_or_eq_of_le hsize with hlt | heq
    · exact Or.inl fun key t => h.numbered.lt_next hlt
    · refine Or.inr ⟨?_, h.numbered.all_used heq⟩
      have hnext := h.numbered.next_eq
      rw [heq] at hnext
      exact TextureId.mk.inj hnext

/-- At every moment of a history in which no more than `2 ^ 32` different keys are in force at a
time, the sheet shows the frames that were added since everything was dropped last, each key with a
texture of its own; and a key keeps its texture until everything is dropped. -/
theorem shows_obeyAll {calls before : List SheetCall} (hkeys : KeysWithin (2 ^ 32) calls)
    (hbefore : before <+: calls) :
    (obeyAll {} before).Shows (sinceClear before) ∧
      ∀ more, .clear ∉ more → ∀ key t, (obeyAll {} before).texture? key = some t →
        (obeyAll {} (before ++ more)).texture? key = some t := by
  refine ⟨(recorded_obeyAll before).shows (hkeys before hbefore), ?_⟩
  intro more hmore key t ht
  rw [obeyAll_append]
  exact texture?_obeyAll hmore ht

/-- Frames of two assets: one is added twice, all are dropped, and one comes back after the other. -/
def returningCalls : List SheetCall :=
  [.add "hero-0" ⟨2, 2⟩, .add "hero-0" ⟨4, 3⟩, .clear, .add "slime-0" ⟨1, 1⟩,
    .add "hero-0" ⟨2, 2⟩]

theorem shows_returningCalls :
    KeysWithin (2 ^ 32) returningCalls ∧ returningCalls.take 4 <+: returningCalls ∧
      (obeyAll {} (returningCalls.take 2)).Shows [("hero-0", ⟨2, 2⟩), ("hero-0", ⟨4, 3⟩)] ∧
      (obeyAll {} returningCalls).Shows [("slime-0", ⟨1, 1⟩), ("hero-0", ⟨2, 2⟩)] ∧
      (obeyAll {} (returningCalls.take 4)).texture? "slime-0" = some ⟨0⟩ ∧
      (obeyAll {} returningCalls).texture? "slime-0" = some ⟨0⟩ := by
  have hkeys : KeysWithin (2 ^ 32) returningCalls := keysWithin_of_length_le (by decide)
  obtain ⟨hhalf, hkept⟩ := shows_obeyAll hkeys (List.take_prefix 4 returningCalls)
  have hslime := hhalf.texture?_eq "slime-0" (by decide)
  have hfirst := shows_obeyAll hkeys (List.take_prefix 2 returningCalls)
  have hlast := shows_obeyAll hkeys (List.prefix_refl returningCalls)
  refine ⟨hkeys, List.take_prefix 4 _, hfirst.1, hlast.1, hslime, ?_⟩
  exact hkept [.add "hero-0" ⟨2, 2⟩] (by decide) "slime-0" ⟨0⟩ hslime

end FrameSheet

end SpriteStage
