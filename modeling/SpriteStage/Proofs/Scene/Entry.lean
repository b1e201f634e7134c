import SpriteStage.Proofs.Json.Reads
import SpriteStage.Scene.Data

/-!
# Saved entries are loaded again

An entry of a timeline goes through a JSON value when it is read. Its members are leaves, and each
leaf is read as a value (`Leaf.Sound.reads`). No two members share a name, since no field of an
action has the name of an entry's own member (`nodup_fieldNames`), so the values give the entry back
(`ofJson?_members`). Numbers are the one thing that may change on the way: each has to survive on its
own, as only finite ones do (`Survives.isFinite`).
-/

set_option autoImplicit false

namespace SpriteStage

open Json (Literal Members Number Reader Value)
open Json.Reader (Reads Takes)

/-- A number is read back from what is written for it. -/
def Survives (x : Float32) : Prop :=
  (Reader.single : Reader Empty Float32).run (String.ofList (Decimal.singleText x)) = .ok x

theorem survives_iff {x : Float32} : Survives x ↔
    ((Reader.single : Reader Empty Float32).run
      (String.ofList (Decimal.singleText x))).toOption = some x := by
  rw [Survives]
  cases (Reader.single : Reader Empty Float32).run (String.ofList (Decimal.singleText x)) with
  | error e => exact ⟨nofun, nofun⟩
  | ok y => simp [Except.toOption]

/-- What is not finite is written as nothing, and that is not read as a number. -/
theorem Survives.isFinite {x : Float32} (h : Survives x) : x.isFinite = true := by
  obtain ⟨l, n, hscan, -, -⟩ :=
    Reader.exists_literal_of_run (fun _ => Decimal.isBlank_of_mem_singleText) h
  cases hfinite : x.isFinite with
  | true => rfl
  | false =>
      have hnone : Decimal.Binary.ofSingle? x = none := by
        change x.toModel.unpack.isFinite = false at hfinite
        rw [Decimal.Binary.ofSingle?]
        cases hparts : x.toModel.unpack with
        | notANumber => rfl
        | infinity s => rfl
        | zero s =>
            rw [hparts] at hfinite
            cases hfinite
        | finite s m e hm =>
            rw [hparts] at hfinite
            cases hfinite
      have hword : Literal.scan "null".toList = none := rfl
      rw [Decimal.singleText, hnone] at hscan
      cases hword.symm.trans hscan

instance (x : Float32) : Decidable (Survives x) := decidable_of_iff _ survives_iff.symm

/-! ## Members by name -/

namespace Json.Members

variable {ms : Members} {name : String} {v : Value}

theorem filter_eq_nil (h : name ∉ ms.map (·.1)) : ms.filter (·.1 = name) = [] := by
  rw [List.filter_eq_nil_iff]
  intro m hm hname
  exact h (List.mem_map.2 ⟨m, hm, of_decide_eq_true hname⟩)

theorem filter_eq_singleton (hnames : (ms.map (·.1)).Nodup) (h : (name, v) ∈ ms) :
    ms.filter (·.1 = name) = [(name, v)] := by
  induction ms with
  | nil => cases h
  | cons m ms ih =>
      rw [List.map_cons, List.nodup_cons] at hnames
      obtain ⟨hnew, hnames⟩ := hnames
      rcases List.mem_cons.1 h with rfl | h
      · simp [filter_eq_nil hnew]
      · have hne : m.1 ≠ name := by
          rintro rfl
          exact hnew (List.mem_map.2 ⟨_, h, rfl⟩)
        simpa [hne] using ih hnames h

theorem field?_of_not_mem (h : name ∉ ms.map (·.1)) : ms.field? name = some none := by
  rw [field?, filter_eq_nil h]

theorem field?_of_mem (hnames : (ms.map (·.1)).Nodup) (h : (name, v) ∈ ms) :
    ms.field? name = some (some v) := by
  rw [field?, filter_eq_singleton hnames h]

end Json.Members

/-! ## Leaves -/

/-- What a member of a timeline entry holds. -/
inductive Leaf where
  /-- A number. -/
  | single (x : Float32)
  /-- A string. -/
  | string (s : String)
  /-- A truth value. -/
  | bool (b : Bool)

namespace Leaf

/-- The text of the leaf. -/
def text : Leaf → List Char
  | single x => Decimal.singleText x
  | string s => Json.Quoted.encode s
  | bool b => Json.boolText b

/-- The value as which the text is read. -/
def value : Leaf → Value
  | single x =>
    .number (((Literal.scan (Decimal.singleText x)).bind (·.1.toNumber?)).getD (.natural 0))
  | string s => .string s
  | bool b => .bool b

/-- The number in the leaf. -/
def single? : Leaf → Option Float32
  | single x => some x
  | _ => none

/-- The number in the leaf, if there is one, survives. -/
def Sound : Leaf → Prop
  | single x => Survives x
  | _ => True

theorem Sound.exists_literal {x : Float32} (h : (single x).Sound) :
    ∃ l n, Literal.scan (Decimal.singleText x) = some (l, []) ∧ l.toNumber? = some n ∧
      n.toSingle = x ∧ (single x).value = .number n := by
  obtain ⟨l, n, hscan, hnumber, hx⟩ :=
    Reader.exists_literal_of_run (fun _ => Decimal.isBlank_of_mem_singleText) h
  exact ⟨l, n, hscan, hnumber, hx, by simp [value, hscan, hnumber]⟩

theorem Sound.single?_value {x : Float32} (h : (single x).Sound) :
    (single x).value.single? = some x := by
  obtain ⟨l, n, -, -, hx, hvalue⟩ := h.exists_literal
  rw [hvalue, Value.single?, hx]

theorem Sound.optional?_value {x : Float32} (h : (single x).Sound) :
    Value.optional? Value.single? (single x).value = some (some x) := by
  obtain ⟨l, n, -, -, hx, hvalue⟩ := h.exists_literal
  rw [hvalue, Value.optional?, Value.single?, hx, Option.map_some]
  nofun

theorem Sound.reads {ε : Type} {l : Leaf} (h : l.Sound) (nesting : Nat) :
    Reads (Reader.value nesting : Reader ε Value) l.text l.value := by
  cases l with
  | single x =>
      obtain ⟨l, n, hscan, hnumber, -, hvalue⟩ := h.exists_literal
      rw [hvalue]
      exact Reader.reads_value_number hscan hnumber nesting
  | string s => exact Reader.reads_value_string s nesting
  | bool b => exact Reader.reads_value_bool b nesting

end Leaf

/-! ## Entries -/

namespace SceneAction

/-- The members of an action. -/
def leaves : SceneAction → List (String × Leaf)
  | place target => [("x", .single target.x), ("y", .single target.y)]
  | unplace => []
  | animate animation reverse frameTime =>
    [("animate", .string animation), ("reverse", .bool reverse)] ++
      (frameTime.map fun x => ("frameTime", .single x)).toList
  | move target duration speed ease =>
    [("x", .single target.x), ("y", .single target.y)] ++
      (duration.map fun x => ("duration", .single x)).toList ++
      (speed.map fun x => ("speed", .single x)).toList ++
      (ease.map fun name => ("ease", .string name)).toList

/-- The numbers of an action. -/
def singles : SceneAction → List Float32
  | place target => [target.x, target.y]
  | unplace => []
  | animate _ _ frameTime => frameTime.toList
  | move target duration speed _ => [target.x, target.y] ++ duration.toList ++ speed.toList

theorem fieldTexts_eq (a : SceneAction) : a.fieldTexts = a.leaves.map fun m => (m.1, m.2.text) := by
  cases a with
  | place target => rfl
  | unplace => rfl
  | animate animation reverse frameTime => cases frameTime <;> rfl
  | move target duration speed ease => cases duration <;> cases speed <;> cases ease <;> rfl

theorem filterMap_leaves (a : SceneAction) : a.leaves.filterMap (·.2.single?) = a.singles := by
  cases a with
  | place target => rfl
  | unplace => rfl
  | animate animation reverse frameTime => cases frameTime <;> rfl
  | move target duration speed ease => cases duration <;> cases speed <;> cases ease <;> rfl

/-- The members are among the fields that an action of the kind may have. -/
theorem sublist_fieldNames (a : SceneAction) : (a.leaves.map (·.1)).Sublist a.kind.fieldNames := by
  have hoptional : ∀ {α : Type} (o : Option α) (name : String) (leaf : α → Leaf),
      ((o.map fun x => (name, leaf x)).toList.map (·.1)).Sublist [name] := by
    intro α o name leaf
    cases o with
    | none => exact List.nil_sublist _
    | some x => exact List.Sublist.refl _
  cases a with
  | place target => exact List.Sublist.refl _
  | unplace => exact List.Sublist.refl _
  | animate animation reverse frameTime =>
      exact (List.Sublist.refl ["animate", "reverse"]).append (hoptional _ _ _)
  | move target duration speed ease =>
      simp only [leaves, List.map_append]
      exact (((List.Sublist.refl ["x", "y"]).append (hoptional _ _ _)).append
        (hoptional _ _ _)).append (hoptional _ _ _)

end SceneAction

namespace TimelineEntry

/-- The members of an entry. -/
def leaves (e : TimelineEntry) : List (String × Leaf) :=
  [("time", .single e.time), ("sprite", .string e.sprite), ("type", .string e.action.kind.name)] ++
    e.action.leaves

theorem fieldTexts_eq (e : TimelineEntry) :
    e.fieldTexts = e.leaves.map fun m => (m.1, m.2.text) := by
  rw [fieldTexts, leaves, List.map_append, SceneAction.fieldTexts_eq]
  rfl

/-- The names of the members that every entry has. -/
def ownNames : List String := ["time", "sprite", "type"]

/-- No field of an action has the name of an entry's own member, or of another field. -/
theorem nodup_fieldNames (kind : EventKind) : (ownNames ++ kind.fieldNames).Nodup := by
  cases kind <;> decide

/-- The numbers of an entry. -/
def singles (e : TimelineEntry) : List Float32 := e.time :: e.action.singles

theorem filterMap_leaves (e : TimelineEntry) : e.leaves.filterMap (·.2.single?) = e.singles := by
  rw [leaves, List.filterMap_append, SceneAction.filterMap_leaves]
  rfl

theorem sound_of_survives {e : TimelineEntry} (h : ∀ x ∈ e.singles, Survives x) :
    ∀ m ∈ e.leaves, m.2.Sound := by
  rintro ⟨name, l⟩ hm
  cases l with
  | single x =>
      -- every number of a member is one of the numbers that are known to survive
      rw [← filterMap_leaves] at h
      exact h x (List.mem_filterMap.2 ⟨_, hm, rfl⟩)
  | string s => trivial
  | bool b => trivial

/-- No two members of an entry have one name. -/
theorem nodup_leaves (e : TimelineEntry) : (e.leaves.map (·.1)).Nodup := by
  rw [leaves, List.map_append]
  exact (nodup_fieldNames e.action.kind).sublist
    ((List.Sublist.refl ownNames).append e.action.sublist_fieldNames)

/-- The members of an entry as they are read. -/
def members (e : TimelineEntry) : Members := e.leaves.map fun m => (m.1, m.2.value)

variable {e : TimelineEntry} {α β : Type} {name : String}

theorem names_members (e : TimelineEntry) : e.members.map (·.1) = e.leaves.map (·.1) := by
  rw [members, List.map_map]
  rfl

theorem field?_of_mem {l : Leaf} (h : (name, l) ∈ e.leaves) :
    Members.field? e.members name = some (some l.value) :=
  Members.field?_of_mem (e.names_members ▸ e.nodup_leaves) (List.mem_map.2 ⟨(name, l), h, rfl⟩)

theorem field?_of_forall (h : ∀ l, (name, l) ∉ e.leaves) :
    Members.field? e.members name = some none := by
  refine Members.field?_of_not_mem ?_
  rw [names_members]
  intro hname
  obtain ⟨m, hm, rfl⟩ := List.mem_map.1 hname
  exact h m.2 hm

theorem required?_of_mem {l : Leaf} (h : (name, l) ∈ e.leaves) (read : Value → Option α) :
    Members.required? e.members name read = read l.value := by
  rw [Members.required?, field?_of_mem h]

theorem defaulted?_of_mem {l : Leaf} (h : (name, l) ∈ e.leaves) (default : α)
    (read : Value → Option α) : Members.defaulted? e.members name default read = read l.value := by
  rw [Members.defaulted?, field?_of_mem h]

/-- A member that is left out when it is absent is read as what it was. -/
theorem defaulted?_optional {o : Option α} {leaf : α → Leaf} {read : Value → Option α}
    (h : ∀ l, (name, l) ∈ e.leaves ↔ ∃ x, o = some x ∧ leaf x = l)
    (hread : ∀ x, o = some x → Value.optional? read (leaf x).value = some (some x)) :
    Members.defaulted? e.members name none (Value.optional? read) = some o := by
  cases o with
  | none =>
      -- no member of the entry has the name, so the default is taken
      rw [Members.defaulted?, field?_of_forall fun l hl => by simpa using (h l).1 hl]
  | some x => rw [defaulted?_of_mem ((h _).2 ⟨x, rfl, rfl⟩), hread x rfl]

theorem required?_string {s : String} (h : (name, .string s) ∈ e.leaves) :
    Members.required? e.members name Value.string? = some s := by
  rw [required?_of_mem h]
  rfl

theorem required?_single {x : Float32} (hsound : ∀ m ∈ e.leaves, m.2.Sound)
    (h : (name, .single x) ∈ e.leaves) :
    Members.required? e.members name Value.single? = some x := by
  rw [required?_of_mem h]
  exact Leaf.Sound.single?_value (hsound _ h)

theorem defaulted?_single {o : Option Float32} (hsound : ∀ m ∈ e.leaves, m.2.Sound)
    (h : ∀ l, (name, l) ∈ e.leaves ↔ ∃ x, o = some x ∧ Leaf.single x = l) :
    Members.defaulted? e.members name none (Value.optional? Value.single?) = some o := by
  refine defaulted?_optional h fun x hx => ?_
  exact Leaf.Sound.optional?_value (hsound (name, .single x) ((h _).2 ⟨x, hx, rfl⟩))

theorem defaulted?_string {o : Option String}
    (h : ∀ l, (name, l) ∈ e.leaves ↔ ∃ s, o = some s ∧ Leaf.string s = l) :
    Members.defaulted? e.members name none (Value.optional? Value.string?) = some o :=
  defaulted?_optional h fun _ _ => rfl

/-- The members of an entry give its action back. -/
theorem ofMembers?_members (hsound : ∀ m ∈ e.leaves, m.2.Sound) :
    SceneAction.ofMembers? e.action.kind e.members = some e.action := by
  have htarget : ∀ target : Point Float32, ("x", .single target.x) ∈ e.leaves →
      ("y", .single target.y) ∈ e.leaves → SceneAction.target? e.members = some target := by
    intro target hx hy
    simp [SceneAction.target?, required?_single hsound hx, required?_single hsound hy]
  cases haction : e.action with
  | place target =>
      have htarget := htarget target (by simp [leaves, SceneAction.leaves, haction])
        (by simp [leaves, SceneAction.leaves, haction])
      simp [SceneAction.kind, SceneAction.ofMembers?, htarget]
  | unplace => rfl
  | animate animation reverse frameTime =>
      have hanimation : Members.required? e.members "animate" Value.string? = some animation :=
        required?_string (by simp [leaves, SceneAction.leaves, haction])
      have hreverse : Members.defaulted? e.members "reverse" false Value.bool? = some reverse :=
        defaulted?_of_mem (l := .bool reverse) (by simp [leaves, SceneAction.leaves, haction])
          false Value.bool?
      have hframeTime : Members.defaulted? e.members "frameTime" none
          (Value.optional? Value.single?) = some frameTime :=
        defaulted?_single hsound (by simp [leaves, SceneAction.leaves, haction])
      simp [SceneAction.kind, SceneAction.ofMembers?, hanimation, hreverse, hframeTime]
  | move target duration speed ease =>
      have htarget := htarget target (by simp [leaves, SceneAction.leaves, haction])
        (by simp [leaves, SceneAction.leaves, haction])
      have hduration : Members.defaulted? e.members "duration" none
          (Value.optional? Value.single?) = some duration :=
        defaulted?_single hsound (by simp [leaves, SceneAction.leaves, haction])
      have hspeed : Members.defaulted? e.members "speed" none
          (Value.optional? Value.single?) = some speed :=
        defaulted?_single hsound (by simp [leaves, SceneAction.leaves, haction])
      have hease : Members.defaulted? e.members "ease" none
          (Value.optional? Value.string?) = some ease :=
        defaulted?_string (by simp [leaves, SceneAction.leaves, haction])
      simp [SceneAction.kind, SceneAction.ofMembers?, htarget, hduration, hspeed, hease]

/-- The members of an entry give it back. -/
theorem ofJson?_members (hsound : ∀ m ∈ e.leaves, m.2.Sound) :
    ofJson? (.object e.members) = some e := by
  have hkind : ∀ kind : EventKind, EventKind.ofCode? (.string kind.name) = some kind := by
    intro kind
    cases kind <;> rfl
  have htype : Members.required? e.members "type" EventKind.ofCode? = some e.action.kind :=
    (required?_of_mem (l := .string e.action.kind.name) (by simp [leaves]) _).trans (hkind _)
  have htime : Members.required? e.members "time" Value.single? = some e.time :=
    required?_single hsound (by simp [leaves])
  have hsprite : Members.required? e.members "sprite" Value.string? = some e.sprite :=
    required?_string (by simp [leaves])
  simp [ofJson?, htype, htime, hsprite, ofMembers?_members hsound]

/-- What is written for an entry is read as the entry. -/
theorem reads {ε : Type} (hsound : ∀ m ∈ e.leaves, m.2.Sound) (nesting : Nat) :
    Reads (SceneData.readEntry (nesting + 1) : Reader ε TimelineEntry)
      (Json.objectText e.fieldTexts) e := by
  have hvalue : Reads (Reader.value (nesting + 1) : Reader ε Value) (Json.objectText e.fieldTexts)
      (.object e.members) := by
    rw [fieldTexts_eq]
    -- the brace tells the reader of values that an object comes
    refine Reads.peek ?_
    exact (Reader.reads_members Leaf.text Leaf.value e.leaves
      fun m hm => (hsound m hm).reads nesting).bind fun _ => rfl
  refine hvalue.bind fun rest => ?_
  rw [ofJson?_members hsound]
  rfl

end TimelineEntry

end SpriteStage
