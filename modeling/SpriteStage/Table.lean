/-!
# Tables of named values

`Table α` binds names to values. A table keeps its names in the order in which they were first
bound, and binds each name once; that is a field of the type, so no operation has to check it.
Animation sets, render sheets, asset libraries and the cast of a scene are tables.

The view of a table is `get?`; `names` gives the order.
-/

set_option autoImplicit false

namespace SpriteStage

universe u v

/-- Values bound to names, in the order in which the names were first bound. -/
structure Table (α : Type u) where
  /-- The bindings, oldest name first. -/
  entries : List (String × α) := []
  /-- No name is bound twice. -/
  names_nodup : (entries.map Prod.fst).Nodup := by simp

namespace Table

variable {α : Type u} {β : Type v}

/-- The table without names. -/
def empty : Table α where

instance : Inhabited (Table α) := ⟨empty⟩

instance : EmptyCollection (Table α) := ⟨empty⟩

/-- Two tables with the same bindings in the same order are equal. -/
theorem ext_entries {s t : Table α} (h : s.entries = t.entries) : s = t := by
  cases s
  cases t
  cases h
  rfl

/-- The names, oldest first. -/
def names (t : Table α) : List String := t.entries.map Prod.fst

/-- The values, in the order of their names. -/
def values (t : Table α) : List α := t.entries.map Prod.snd

/-- The number of names. -/
def size (t : Table α) : Nat := t.entries.length

/-- Whether no name is bound. -/
def isEmpty (t : Table α) : Bool := t.entries.isEmpty

/-- The value bound to `name`. -/
def get? (t : Table α) (name : String) : Option α := t.entries.lookup name

/-- Whether `name` is bound. -/
def contains (t : Table α) (name : String) : Bool := t.entries.any (·.1 == name)

/-- Rewrites every value, knowing its name; the names stay as they are. -/
def mapWithName (f : String → α → β) (t : Table α) : Table β where
  entries := t.entries.map fun e => (e.1, f e.1 e.2)
  names_nodup := by
    have h : (t.entries.map fun e => (e.1, f e.1 e.2)).map Prod.fst = t.entries.map Prod.fst := by
      simp
    rw [h]
    exact t.names_nodup

/-- Rewrites the value of one name, if it is bound. -/
def modify (t : Table α) (name : String) (f : α → α) : Table α :=
  t.mapWithName fun n a => if n = name then f a else a

theorem contains_iff {t : Table α} {name : String} : t.contains name = true ↔ name ∈ t.names := by
  simp [contains, names]

/-- Binds `name` to `value`. A new name goes to the end; a bound name keeps its place. -/
def insert (t : Table α) (name : String) (value : α) : Table α :=
  if h : t.contains name = true then t.modify name fun _ => value
  else
    { entries := t.entries ++ [(name, value)]
      names_nodup := by
        have hn : name ∉ t.names := fun hm => h (contains_iff.2 hm)
        rw [List.map_append, List.nodup_append]
        refine ⟨t.names_nodup, by simp, ?_⟩
        intro a ha b hb
        have hb' : b = name := by simpa using hb
        intro hab
        apply hn
        rw [← hb', ← hab]
        exact ha }

/-- The same bindings with the names in ascending order of their code points. -/
def sortByName (t : Table α) : Table α where
  entries := t.entries.mergeSort fun a b => decide (a.1 ≤ b.1)
  names_nodup :=
    (List.mergeSort_perm t.entries _).map Prod.fst |>.nodup_iff.2 t.names_nodup

/-- Rewrites every value by a function that may fail, oldest name first. The first failure is the
failure of the whole. -/
def mapM {ε : Type u} (f : String → α → Except ε β) (t : Table α) : Except ε (Table β) :=
  (go t.entries).map fun done =>
    { entries := done.1
      names_nodup := by rw [done.2]; exact t.names_nodup }
where
  /-- Rewrites the bindings one by one and keeps their names. -/
  go : (l : List (String × α)) →
      Except ε { done : List (String × β) // done.map Prod.fst = l.map Prod.fst }
    | [] => .ok ⟨[], rfl⟩
    | (n, a) :: rest =>
      match f n a with
      | .error e => .error e
      | .ok b =>
        match go rest with
        | .error e => .error e
        | .ok done => .ok ⟨(n, b) :: done.1, by simp [done.2]⟩

/-- Builds a table from bindings in order; a later binding of a name replaces an earlier one. -/
def ofList (l : List (String × α)) : Table α := l.foldl (fun t e => t.insert e.1 e.2) empty

/-! ## Laws of the view -/

@[simp] theorem get?_empty {name : String} : (empty : Table α).get? name = none := rfl

@[simp] theorem names_empty : (empty : Table α).names = [] := rfl

@[simp] theorem names_mapWithName {f : String → α → β} {t : Table α} :
    (t.mapWithName f).names = t.names := by
  simp [mapWithName, names]

@[simp] theorem names_modify {t : Table α} {name : String} {f : α → α} :
    (t.modify name f).names = t.names := by
  simp [modify]

/-- A new name goes to the end, and a bound one keeps its place. -/
theorem names_insert (t : Table α) (name : String) (value : α) :
    (t.insert name value).names = if t.contains name then t.names else t.names ++ [name] := by
  unfold insert
  split
  · simp
  · simp [names]

theorem lookup_map (f : String → α → β) (l : List (String × α)) (name : String) :
    (l.map fun e => (e.1, f e.1 e.2)).lookup name = (l.lookup name).map (f name) := by
  induction l with
  | nil => rfl
  | cons e l ih =>
    obtain ⟨n, a⟩ := e
    by_cases h : name = n
    · subst h
      simp
    · simp [List.lookup_cons, beq_eq_false_iff_ne.2 h, ih]

@[simp] theorem get?_mapWithName (f : String → α → β) (t : Table α) (name : String) :
    (t.mapWithName f).get? name = (t.get? name).map (f name) :=
  lookup_map f t.entries name

theorem get?_modify (t : Table α) (name other : String) (f : α → α) :
    (t.modify name f).get? other = if other = name then (t.get? other).map f else t.get? other := by
  by_cases h : other = name
  · simp [modify, h]
  · simp [modify, h]

theorem contains_eq_isSome_get? (t : Table α) (name : String) :
    t.contains name = (t.get? name).isSome := by
  rw [Bool.eq_iff_iff, contains_iff, names, get?]
  induction t.entries with
  | nil => simp
  | cons e l ih =>
    by_cases h : name = e.1
    · subst h
      simp
    · simp [h, ih]

/-- Binding a name changes the value of that name only. -/
theorem get?_insert (t : Table α) (name other : String) (value : α) :
    (t.insert name value).get? other = if other = name then some value else t.get? other := by
  unfold insert
  split
  · next h =>
    rw [get?_modify]
    by_cases ho : other = name
    · subst ho
      rw [contains_eq_isSome_get?] at h
      obtain ⟨a, ha⟩ := Option.isSome_iff_exists.1 h
      simp [ha]
    · simp [ho]
  · next h =>
    simp only [get?, List.lookup_append]
    by_cases ho : other = name
    · subst ho
      have hn : t.get? other = none := by
        simpa [contains_eq_isSome_get?] using h
      rw [show t.entries.lookup other = none from hn]
      simp
    · simp [List.lookup_cons, beq_eq_false_iff_ne.2 ho, ho]

/-- A binding of the table is what looking up its name finds. -/
theorem mem_entries_iff (t : Table α) (name : String) (a : α) :
    (name, a) ∈ t.entries ↔ t.get? name = some a := by
  have h := t.names_nodup
  rw [get?]
  generalize t.entries = l at h
  induction l with
  | nil => simp
  | cons e l ih =>
    obtain ⟨n, b⟩ := e
    simp only [List.map_cons, List.nodup_cons] at h
    by_cases hn : name = n
    · subst hn
      have hl : (name, a) ∉ l := fun hm => h.1 (List.mem_map.2 ⟨_, hm, rfl⟩)
      simp [hl, eq_comm]
    · simp [List.lookup_cons, beq_eq_false_iff_ne.2 hn, hn, ih h.2]

/-- Sorting moves names and changes no value. -/
@[simp] theorem get?_sortByName (t : Table α) (name : String) :
    t.sortByName.get? name = t.get? name := by
  apply Option.ext
  intro a
  rw [← mem_entries_iff, ← mem_entries_iff]
  exact (List.mergeSort_perm t.entries _).mem_iff

end Table

end SpriteStage
