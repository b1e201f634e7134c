import SpriteStage.Proofs.Checks
import SpriteStage.Table

/-!
# Rewriting tables

A table is known from its names, in their order, and from the value of each name. A rewriting of all
values sees of a change to one value no more than it keeps of that value. A rewriting that can fail
keeps every name, rewrites each value by itself (`mapM_eq_ok_iff`), and fails for the first value
that fails (`mapM_eq_error_iff`). Sorting by name forgets the order (`sortByName_eq_of_perm`).
-/

set_option autoImplicit false

namespace SpriteStage.Table

variable {α β : Type}

/-- Tables with the same names in the same order and the same values are equal. -/
theorem ext_get? {s t : Table α} (hnames : s.names = t.names)
    (hget : ∀ name, s.get? name = t.get? name) : s = t := by
  -- the names and the lookups give back the entries: names are distinct, so a lookup finds its own
  have hview : ∀ u : Table α,
      u.entries.map (fun e => (e.1, some e.2)) = u.names.map fun n => (n, u.get? n) := by
    intro u
    show _ = (u.entries.map _).map _
    rw [List.map_map]
    refine List.map_congr_left ?_
    rintro ⟨n, a⟩ hmem
    exact congrArg (Prod.mk n) ((u.mem_entries_iff n a).1 hmem).symm
  have hmaps : s.entries.map (fun e => (e.1, some e.2)) =
      t.entries.map fun e => (e.1, some e.2) := by
    rw [hview, hview, hnames]
    exact List.map_congr_left fun n _ => congrArg (Prod.mk n) (hget n)
  refine ext_entries ((List.map_inj_right ?_).1 hmaps)
  rintro ⟨n, a⟩ ⟨m, b⟩ heq
  cases heq
  rfl

/-- A rewriting that changes no value of a table does not change the table. -/
theorem mapWithName_eq_self {f : α → α} {t : Table α}
    (h : ∀ name a, t.get? name = some a → f a = a) : (t.mapWithName fun _ => f) = t := by
  refine ext_get? names_mapWithName ?_
  intro name
  rw [get?_mapWithName]
  cases ha : t.get? name with
  | none => rfl
  | some a => exact congrArg some (h name a ha)

/-- Rewriting one value depends on what that value becomes only. -/
theorem modify_congr {t : Table α} {name : String} {f g : α → α}
    (h : ∀ a, t.get? name = some a → f a = g a) : t.modify name f = t.modify name g := by
  refine ext_get? (by rw [names_modify, names_modify]) ?_
  intro other
  rw [get?_modify, get?_modify]
  by_cases hother : other = name
  · rw [if_pos hother, if_pos hother, hother]
    cases ha : t.get? name with
    | none => rfl
    | some a => exact congrArg some (h a ha)
  · rw [if_neg hother, if_neg hother]

theorem modify_id (t : Table α) (name : String) : t.modify name id = t := by
  apply ext_entries
  simp [modify, mapWithName]

/-- Binding a bound name rewrites its value in its place. -/
theorem entries_insert_of_contains {t : Table α} {name : String} (h : t.contains name = true)
    (value : α) :
    (t.insert name value).entries =
      t.entries.map fun e => (e.1, if e.1 = name then value else e.2) := by
  rw [insert, dif_pos h]
  rfl

/-- A new name goes to the end. -/
theorem entries_insert_of_not_contains {t : Table α} {name : String}
    (h : ¬ t.contains name = true) (value : α) :
    (t.insert name value).entries = t.entries ++ [(name, value)] := by
  rw [insert, dif_neg h]

/-- Binding a name to the value that it has changes nothing. -/
theorem insert_eq_self {t : Table α} {name : String} {value : α}
    (h : t.get? name = some value) : t.insert name value = t := by
  refine ext_get? ?_ fun other => ?_
  · rw [names_insert, if_pos (by simp [contains_eq_isSome_get?, h])]
  · rw [get?_insert]
    by_cases hother : other = name
    · rw [if_pos hother, hother, h]
    · rw [if_neg hother]

/-- Rewriting all values forgets which of two alike values a name was given. -/
theorem mapWithName_modify {f : α → α} (hf : ∀ a, f (f a) = f a) (t : Table α)
    (name : String) {v w : α} (h : f v = f w) :
    (t.modify name fun _ => v).mapWithName (fun _ => f) =
      ((t.mapWithName fun _ => f).modify name fun _ => w).mapWithName fun _ => f := by
  apply ext_entries
  show ((t.entries.map _).map _) = (((t.entries.map _).map _).map _)
  rw [List.map_map, List.map_map, List.map_map]
  refine List.map_congr_left ?_
  rintro ⟨n, a⟩ -
  show (n, f (if n = name then v else a)) = (n, f (if n = name then w else f a))
  by_cases hn : n = name
  · rw [if_pos hn, if_pos hn, h]
  · rw [if_neg hn, if_neg hn, hf]

/-- Rewriting all values does not see a change of one that it forgets. -/
theorem mapWithName_modify_of_get? {g : α → β} {t : Table α} {name : String} {a v : α}
    (hget : t.get? name = some a) (hv : g v = g a) :
    (t.modify name fun _ => v).mapWithName (fun _ => g) = t.mapWithName fun _ => g := by
  apply ext_entries
  show ((t.entries.map _).map _) = t.entries.map _
  rw [List.map_map]
  refine List.map_congr_left ?_
  rintro ⟨n, b⟩ hmem
  show (n, g (if n = name then v else b)) = (n, g b)
  by_cases hn : n = name
  · subst hn
    cases hget.symm.trans ((t.mem_entries_iff n b).1 hmem)
    rw [if_pos rfl, hv]
  · rw [if_neg hn]

/-- The bindings of one name are what looking it up finds. -/
theorem filter_entries (t : Table α) (name : String) :
    t.entries.filter (fun e => e.1 = name) = (t.get? name).toList.map (Prod.mk name) := by
  have hnodup := t.names_nodup
  rw [get?]
  generalize t.entries = bindings at hnodup
  induction bindings with
  | nil => rfl
  | cons e l ih =>
      obtain ⟨n, a⟩ := e
      rw [List.map_cons, List.nodup_cons] at hnodup
      by_cases hn : n = name
      · -- no other binding has the name
        subst hn
        have hrest : l.filter (fun e => e.1 = n) = [] := by
          rw [List.filter_eq_nil_iff]
          intro e he heq
          exact hnodup.1 (List.mem_map.2 ⟨e, he, of_decide_eq_true heq⟩)
        simp [hrest]
      · have hlookup : name ≠ n := fun heq => hn heq.symm
        simp [List.lookup_cons, hn, beq_eq_false_iff_ne.2 hlookup, ih hnodup.2]

/-- The names are what looking up finds. -/
theorem mem_names_iff {t : Table α} {name : String} :
    name ∈ t.names ↔ ∃ a, t.get? name = some a := by
  rw [← contains_iff, contains_eq_isSome_get?, Option.isSome_iff_exists]

theorem get?_eq_none_iff {t : Table α} {name : String} : t.get? name = none ↔ name ∉ t.names := by
  rw [mem_names_iff, Option.eq_none_iff_forall_ne_some, not_exists]

/-! ## Rewritings that can fail -/

/-- Rewriting keeps every name and rewrites its value. -/
theorem mem_of_mem_mapM_go {ε : Type} {f : String → α → Except ε β}
    {l : List (String × α)} {done : { done : List (String × β) // done.map Prod.fst = l.map Prod.fst }}
    (h : mapM.go f l = .ok done) {name : String} {b : β} (hb : (name, b) ∈ done.1) :
    ∃ a, (name, a) ∈ l ∧ f name a = .ok b := by
  induction l with
  | nil =>
      have hnil : done.1 = [] := List.map_eq_nil_iff.1 done.2
      rw [hnil] at hb
      cases hb
  | cons e rest ih =>
      obtain ⟨n, a⟩ := e
      rw [mapM.go] at h
      cases hf : f n a with
      | error cause =>
          rw [hf] at h
          cases h
      | ok first =>
          rw [hf] at h
          cases hgo : mapM.go f rest with
          | error cause =>
              rw [hgo] at h
              cases h
          | ok others =>
              rw [hgo] at h
              cases h
              rcases List.mem_cons.1 hb with heq | hrest
              · cases heq
                exact ⟨a, List.mem_cons_self, hf⟩
              · obtain ⟨other, hother, hvalue⟩ := ih hgo hrest
                exact ⟨other, List.mem_cons_of_mem _ hother, hvalue⟩

/-- What a name is bound to in a rewritten table was bound to it before, and rewritten. -/
theorem get?_of_mapM_eq_ok {ε : Type} {f : String → α → Except ε β} {t : Table α}
    {u : Table β} (h : t.mapM f = .ok u) {name : String} {b : β} (hb : u.get? name = some b) :
    ∃ a, t.get? name = some a ∧ f name a = .ok b := by
  unfold Table.mapM at h
  cases hgo : mapM.go f t.entries with
  | error e =>
      rw [hgo] at h
      cases h
  | ok done =>
      rw [hgo] at h
      cases h
      rw [← mem_entries_iff] at hb
      obtain ⟨a, ha, hf⟩ := mem_of_mem_mapM_go hgo hb
      exact ⟨a, (t.mem_entries_iff name a).1 ha, hf⟩

theorem names_of_mapM_eq_ok {ε : Type} {f : String → α → Except ε β} {t : Table α}
    {u : Table β} (h : t.mapM f = .ok u) : u.names = t.names := by
  unfold Table.mapM at h
  cases hgo : mapM.go f t.entries with
  | error e =>
      rw [hgo] at h
      cases h
  | ok done =>
      rw [hgo] at h
      cases h
      exact done.2

/-- A name is bound in a table if it is among its names. -/
theorem exists_get?_of_contains {t : Table α} {name : String}
    (h : t.contains name = true) : ∃ a, t.get? name = some a := mem_names_iff.1 (contains_iff.1 h)

/-- Members are rewritten up to the first that fails. -/
theorem mapM_go_eq_error_iff {ε : Type} {f : String → α → Except ε β} {l : List (String × α)}
    {e : ε} :
    mapM.go f l = .error e ↔
      FirstAt (fun entry => ∃ b, f entry.1 entry.2 = .ok b)
        (fun _ entry => f entry.1 entry.2 = .error e) l := by
  induction l with
  | nil => exact iff_of_false (by simp [mapM.go]) not_firstAt_nil
  | cons entry rest ih =>
      obtain ⟨n, a⟩ := entry
      rw [firstAt_cons, ← ih, mapM.go]
      cases hf : f n a with
      | error cause => simp
      | ok first =>
          cases hgo : mapM.go f rest with
          | error cause => simp
          | ok others => simp

theorem mapM_eq_error_iff {ε : Type} {f : String → α → Except ε β} {t : Table α} {e : ε} :
    t.mapM f = .error e ↔
      FirstAt (fun entry => ∃ b, f entry.1 entry.2 = .ok b)
        (fun _ entry => f entry.1 entry.2 = .error e) t.entries := by
  rw [← mapM_go_eq_error_iff, mapM]
  cases hgo : mapM.go f t.entries with
  | error cause => simp [Except.map]
  | ok done => simp [Except.map]

/-- A table is rewritten if each of its values is. -/
theorem mapM_eq_ok_iff {ε : Type} {f : String → α → Except ε β} {t : Table α} {u : Table β} :
    t.mapM f = .ok u ↔ u.names = t.names ∧
      ∀ name a, t.get? name = some a → ∃ b, f name a = .ok b ∧ u.get? name = some b := by
  have hvalues : ∀ v : Table β, t.mapM f = .ok v → ∀ name a, t.get? name = some a →
      ∃ b, f name a = .ok b ∧ v.get? name = some b := by
    intro v hv name a ha
    have hname : name ∈ v.names := names_of_mapM_eq_ok hv ▸ mem_names_iff.2 ⟨a, ha⟩
    obtain ⟨b, hb⟩ := mem_names_iff.1 hname
    obtain ⟨source, hsource, hf⟩ := get?_of_mapM_eq_ok hv hb
    cases ha.symm.trans hsource
    exact ⟨b, hf, hb⟩
  constructor
  · intro h
    exact ⟨names_of_mapM_eq_ok h, hvalues u h⟩
  · rintro ⟨hnames, hrewritten⟩
    cases hmap : t.mapM f with
    | error e =>
        -- the first failure would be at a value that is rewritten
        obtain ⟨before, ⟨name, a⟩, after, hentries, -, hfails⟩ := mapM_eq_error_iff.1 hmap
        have ha : t.get? name = some a := by
          rw [← mem_entries_iff, hentries]
          simp
        obtain ⟨b, hb, -⟩ := hrewritten name a ha
        cases hb.symm.trans hfails
    | ok v =>
        have hsame : v = u := by
          refine ext_get? ((names_of_mapM_eq_ok hmap).trans hnames.symm) ?_
          intro name
          cases ha : t.get? name with
          | none =>
              rw [get?_eq_none_iff] at ha
              rw [get?_eq_none_iff.2 (names_of_mapM_eq_ok hmap ▸ ha),
                get?_eq_none_iff.2 (hnames ▸ ha)]
          | some a =>
              obtain ⟨b, hb, hu⟩ := hrewritten name a ha
              obtain ⟨c, hc, hv⟩ := hvalues v hmap name a ha
              cases hb.symm.trans hc
              rw [hv, hu]
        rw [hsame]

/-! ## Sorting by name -/

theorem perm_entries_sortByName (t : Table α) : t.sortByName.entries.Perm t.entries :=
  List.mergeSort_perm t.entries _

/-- The names of a sorted table ascend, as each is bound once. -/
theorem pairwise_entries_sortByName (t : Table α) :
    t.sortByName.entries.Pairwise fun a b => a.1 < b.1 := by
  have hordered : t.sortByName.entries.Pairwise fun a b => decide (a.1 ≤ b.1) = true := by
    refine List.pairwise_mergeSort ?_ ?_ t.entries
    · intro a b c hab hbc
      rw [decide_eq_true_iff] at hab hbc ⊢
      exact String.le_trans hab hbc
    · intro a b
      rw [Bool.or_eq_true, decide_eq_true_iff, decide_eq_true_iff]
      exact String.le_total a.1 b.1
  have hdistinct := List.pairwise_map.1 t.sortByName.names_nodup
  refine (hordered.and hdistinct).imp ?_
  rintro a b ⟨hle, hne⟩
  rw [decide_eq_true_iff] at hle
  apply Classical.byContradiction
  intro hnot
  exact hne (String.le_antisymm hle (String.not_lt.1 hnot))

/-- Sorting by name forgets in which order the names were bound. -/
theorem sortByName_eq_of_perm {s t : Table α} (h : s.entries.Perm t.entries) :
    s.sortByName = t.sortByName := by
  apply ext_entries
  have hperm : s.sortByName.entries.Perm t.sortByName.entries :=
    (perm_entries_sortByName s).trans (h.trans (perm_entries_sortByName t).symm)
  refine hperm.eq_of_pairwise ?_ (pairwise_entries_sortByName s) (pairwise_entries_sortByName t)
  intro a b _ _ hab hba
  exact absurd hba (String.lt_asymm hab)

theorem contains_eq_of_perm {s t : Table α} (h : s.entries.Perm t.entries) :
    s.contains = t.contains := by
  funext name
  rw [Bool.eq_iff_iff, contains_iff, contains_iff]
  exact (h.map Prod.fst).mem_iff

end SpriteStage.Table
