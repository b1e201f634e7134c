import SpriteStage.Proofs.Single.Narrowing
import SpriteStage.Proofs.Step.Compact

/-!
# The grammar of compact steps

Which JSON values are compact steps, and which step each of them denotes, is said here by rules: one
for each form (`AuthoredStep.Denotes`), and one for each way to give a duration
(`FrameDuration.Denotes`). Reading a value finds exactly the step that the rules give
(`AuthoredStep.ofJson_eq_ok_iff`), so a value is refused exactly if no rule applies. The other way
round, every step is denoted by some value that a text can hold, unless it has an undefined fixed
duration (`AuthoredStep.ofJson_recognizes`).
-/

set_option autoImplicit false

namespace SpriteStage

open Json (Value)

namespace Json.Value

/-- The values that a JSON text can hold: every number in them is one that it can hold. -/
inductive Proper : Value → Prop where
  | null : Proper .null
  | bool (b : Bool) : Proper (.bool b)
  | number (n : Number) (proper : n.Proper) : Proper (.number n)
  | string (s : String) : Proper (.string s)
  | array (items : List Value) (proper : ∀ v ∈ items, v.Proper) : Proper (.array items)
  | object (members : List (String × Value)) (proper : ∀ m ∈ members, m.2.Proper) :
      Proper (.object members)

theorem proper_ofNatural (n : UInt64) : (ofNatural n).Proper := .number _ (.natural n)

theorem Proper.of_mem {v : Value} {items : List Value} (h : (Value.array items).Proper)
    (hv : v ∈ items) : v.Proper := by
  cases h with
  | array items proper => exact proper v hv

/-! ## Natural numbers -/

/-- A natural number is written without a sign, a point or an exponent; no other value is one. -/
theorem natural?_eq_some_iff {v : Value} {n : UInt64} : v.natural? = some n ↔ v = ofNatural n := by
  cases v with
  | number number => cases number <;> simp [natural?, ofNatural]
  | null => simp [natural?, ofNatural]
  | bool b => simp [natural?, ofNatural]
  | string s => simp [natural?, ofNatural]
  | array items => simp [natural?, ofNatural]
  | object members => simp [natural?, ofNatural]

/-- A word is a natural number that has room in 32 bits. -/
theorem word?_eq_some_iff {v : Value} {n : UInt32} :
    v.word? = some n ↔ v = ofNatural n.toUInt64 := by
  constructor
  · intro h
    obtain ⟨wide, hwide, hword⟩ := Option.bind_eq_some_iff.1 h
    obtain rfl := natural?_eq_some_iff.1 hwide
    split at hword
    · next hlt =>
      obtain rfl := Option.some.inj hword
      have hsame : (UInt32.ofNat wide.toNat).toUInt64 = wide := by
        apply UInt64.toNat_inj.1
        rw [UInt32.toNat_toUInt64, UInt32.toNat_ofNat', Nat.mod_eq_of_lt hlt]
      rw [hsame]
    · cases hword
  · rintro rfl
    exact FrameDuration.word?_ofNatural_toUInt64 n

end Json.Value

/-! ## Durations -/

namespace FrameDuration

/-- What the items that follow the frames of a step say of its duration. Only the first of them is
looked at. -/
inductive Denotes : List Value → FrameDuration → Prop where
  /-- No duration is given. -/
  | missing : Denotes [] (.fixed 1.0)
  /-- The duration is given as absent. -/
  | absent (ignored : List Value) : Denotes (.null :: ignored) (.fixed 1.0)
  /-- A fixed count, narrowed to single precision. -/
  | count (n : Json.Number) (ignored : List Value) :
      Denotes (.number n :: ignored) (.fixed (Single.ofDouble n.toDouble))
  /-- A pair of bounds, each a natural number of 32 bits. -/
  | bounds (least greatest : UInt32) (ignored : List Value) :
      Denotes (.array [.ofNatural least.toUInt64, .ofNatural greatest.toUInt64] :: ignored)
        (.range least greatest)

theorem ofJson_eq_ok_iff {items : List Value} {d : FrameDuration} :
    ofJson items.head? = .ok d ↔ Denotes items d := by
  constructor
  · intro h
    cases items with
    | nil => cases h; exact .missing
    | cons v ignored =>
        rw [List.head?_cons] at h
        cases v with
        | null => cases h; exact .absent ignored
        | number n => cases h; exact .count n ignored
        | bool b => cases h
        | string s => cases h
        | object members => cases h
        | array bounds =>
            -- every other number of items is refused
            match bounds with
            | [] => cases h
            | [_] => cases h
            | _ :: _ :: _ :: _ => cases h
            | [least, greatest] =>
                simp only [ofJson] at h
                split at h
                · next l g hleast hgreatest =>
                  cases h
                  rw [Value.word?_eq_some_iff.1 hleast, Value.word?_eq_some_iff.1 hgreatest]
                  exact .bounds l g ignored
                · cases h
  · intro h
    cases h with
    | missing => rfl
    | absent ignored => rfl
    | count n ignored => rfl
    | bounds least greatest ignored =>
        simp [ofJson, word?_ofNatural_toUInt64]

/-- A fixed duration that a text gives is defined. -/
theorem Denotes.defined {items : List Value} {count : Float32} (h : Denotes items (.fixed count))
    (hproper : ∀ v ∈ items, v.Proper) : count.isNaN = false := by
  cases h with
  | missing => decide +kernel
  | absent ignored => decide +kernel
  | count n ignored =>
      cases hproper _ List.mem_cons_self with
      | number n hn => exact Single.isNaN_ofDouble_toDouble hn

/-- A text can give every duration but an undefined one. -/
theorem exists_denotes {d : FrameDuration} (h : ∀ count, d = .fixed count → count.isNaN = false) :
    ∃ v : Value, v.Proper ∧ Denotes [v] d := by
  cases d with
  | fixed count =>
      obtain ⟨n, hproper, rfl⟩ := Single.exists_proper (h count rfl)
      exact ⟨.number n, .number n hproper, .count n []⟩
  | range least greatest =>
      refine ⟨_, .array _ ?_, .bounds least greatest []⟩
      simp [Value.proper_ofNatural]

end FrameDuration

/-! ## Steps -/

namespace AuthoredStep

/-- Which step a value denotes. A form uses the items up to its duration, and those after it are
ignored. -/
inductive Denotes : Value → AuthoredStep → Prop where
  /-- A frame that is shown for the count of one. -/
  | index (n : UInt64) : Denotes (.ofNatural n) (.frame n (.fixed 1.0))
  /-- The way back to the start. -/
  | loop : Denotes (.string "loop") .loop
  /-- The way to another animation. -/
  | link (target : String) (ignored : List Value) :
      Denotes (.array (.string "link" :: .string target :: ignored)) (.link target)
  /-- One of several frames. -/
  | unique (choices : List UInt64) {rest : List Value} {d : FrameDuration}
      (duration : FrameDuration.Denotes rest d) :
      Denotes (.array (.string "unique" :: .array (choices.map .ofNatural) :: rest))
        (.unique choices d)
  /-- Frames that share a duration. -/
  | group (frames : List UInt64) {rest : List Value} {d : FrameDuration}
      (duration : FrameDuration.Denotes rest d) :
      Denotes (.array (.array (frames.map .ofNatural) :: rest)) (.group frames d)
  /-- A frame with its duration. -/
  | frame (n : UInt64) {rest : List Value} {d : FrameDuration}
      (duration : FrameDuration.Denotes rest d) :
      Denotes (.array (.ofNatural n :: rest)) (.frame n d)

theorem frameIndex_eq_ok_iff {v : Value} {n : UInt64} : frameIndex v = .ok n ↔ v = .ofNatural n := by
  rw [← Value.natural?_eq_some_iff, frameIndex]
  cases v.natural? <;> simp

/-- A list of frames is read item by item, and every item is a natural number. -/
theorem frameIndices_eq_ok_iff {vs : List Value} {ns : List UInt64} :
    frameIndices vs = .ok ns ↔ vs = ns.map .ofNatural := by
  constructor
  · intro h
    induction vs generalizing ns with
    | nil => cases h; rfl
    | cons v vs ih =>
        obtain ⟨n, hn, hrest⟩ := bind_eq_ok_iff.1 h
        obtain ⟨rest, hvs, heq⟩ := bind_eq_ok_iff.1 hrest
        cases heq
        rw [List.map_cons, ← ih hvs, ← frameIndex_eq_ok_iff.1 hn]
  · rintro rfl
    exact frameIndices_map_ofNatural ns

/-- Frames and the duration after them are read one after the other. -/
theorem framed_eq_ok_iff {vs rest : List Value}
    {make : List UInt64 → FrameDuration → AuthoredStep} {s : AuthoredStep} :
    (do
      let frames ← frameIndices vs
      return make frames (← FrameDuration.ofJson rest.head?)) = .ok s ↔
      ∃ ns d, vs = ns.map .ofNatural ∧ FrameDuration.Denotes rest d ∧ s = make ns d := by
  constructor
  · intro h
    obtain ⟨ns, hns, hrest⟩ := bind_eq_ok_iff.1 h
    obtain ⟨d, hd, heq⟩ := bind_eq_ok_iff.1 hrest
    cases heq
    exact ⟨ns, d, frameIndices_eq_ok_iff.1 hns, FrameDuration.ofJson_eq_ok_iff.1 hd, rfl⟩
  · rintro ⟨ns, d, rfl, hd, rfl⟩
    rw [frameIndices_map_ofNatural, FrameDuration.ofJson_eq_ok_iff.2 hd]
    rfl

/-- The forms that are arrays differ in their first item. -/
theorem denotes_of_ofItems {items : List Value} {s : AuthoredStep} (h : ofItems items = .ok s) :
    Denotes (.array items) s := by
  revert h
  fun_cases ofItems items with
  | case1 => intro h; cases h
  | case2 target ignored => intro h; cases h; exact .link target ignored
  | case3 => intro h; cases h
  | case4 choices rest =>
      intro h
      obtain ⟨ns, d, rfl, hd, rfl⟩ := framed_eq_ok_iff.1 h
      exact .unique ns hd
  | case5 => intro h; cases h
  | case6 frames rest =>
      intro h
      obtain ⟨ns, d, rfl, hd, rfl⟩ := framed_eq_ok_iff.1 h
      exact .group ns hd
  | case7 n rest =>
      intro h
      obtain ⟨index, hindex, hrest⟩ := bind_eq_ok_iff.1 h
      obtain ⟨d, hd, heq⟩ := bind_eq_ok_iff.1 hrest
      cases heq
      rw [frameIndex_eq_ok_iff.1 hindex]
      exact .frame index (FrameDuration.ofJson_eq_ok_iff.1 hd)
  | case8 => intro h; cases h

/-- Reading finds the step that the rules give, and no step if no rule applies. -/
theorem ofJson_eq_ok_iff {v : Value} {s : AuthoredStep} : ofJson v = .ok s ↔ Denotes v s := by
  constructor
  · fun_cases ofJson v with
    | case1 n =>
        intro h
        obtain ⟨index, hindex, heq⟩ := bind_eq_ok_iff.1 h
        cases heq
        rw [frameIndex_eq_ok_iff.1 hindex]
        exact .index index
    | case2 => intro h; cases h; exact .loop
    | case3 items => exact denotes_of_ofItems
    | case4 => intro h; cases h
  · intro h
    cases h with
    | index n => rfl
    | loop => rfl
    | link target ignored => rfl
    | unique choices duration => exact framed_eq_ok_iff.2 ⟨choices, _, rfl, duration, rfl⟩
    | group frames duration => exact framed_eq_ok_iff.2 ⟨frames, _, rfl, duration, rfl⟩
    | frame n duration =>
        show (do return frame n (← FrameDuration.ofJson _)) = _
        rw [FrameDuration.ofJson_eq_ok_iff.2 duration]
        rfl

/-! ## Every step is denoted -/

/-- A duration that follows frames in a text is defined. -/
theorem defined_of_denotes {v : Value} {s : AuthoredStep} (hproper : v.Proper) (h : Denotes v s)
    {count : Float32} (hcount : s.duration? = some (.fixed count)) : count.isNaN = false := by
  cases h with
  | index n => cases hcount; decide +kernel
  | loop => cases hcount
  | link target ignored => cases hcount
  | unique choices duration =>
      cases hcount
      exact duration.defined fun v hv => hproper.of_mem (by simp [hv])
  | group frames duration =>
      cases hcount
      exact duration.defined fun v hv => hproper.of_mem (by simp [hv])
  | frame n duration =>
      cases hcount
      exact duration.defined fun v hv => hproper.of_mem (by simp [hv])

theorem exists_denotes {s : AuthoredStep}
    (h : ∀ count, s.duration? = some (.fixed count) → count.isNaN = false) :
    ∃ v : Value, v.Proper ∧ Denotes v s := by
  have hframes : ∀ frames : List UInt64, (Value.array (frames.map .ofNatural)).Proper := by
    intro frames
    refine .array _ ?_
    simp [Value.proper_ofNatural]
  have hduration : ∀ d, s.duration? = some d →
      ∃ v : Value, v.Proper ∧ FrameDuration.Denotes [v] d := fun d hd =>
    FrameDuration.exists_denotes fun count hcount => h count (hcount ▸ hd)
  -- every form is an array of what a text can hold, or a string
  cases s with
  | loop => exact ⟨_, .string "loop", .loop⟩
  | link target =>
      refine ⟨_, .array _ ?_, .link target []⟩
      simp [Value.Proper.string]
  | frame n d =>
      obtain ⟨v, hv, hd⟩ := hduration d rfl
      refine ⟨_, .array _ ?_, .frame n hd⟩
      simp [Value.proper_ofNatural, hv]
  | group frames d =>
      obtain ⟨v, hv, hd⟩ := hduration d rfl
      refine ⟨_, .array _ ?_, .group frames hd⟩
      simp [hframes, hv]
  | unique choices d =>
      obtain ⟨v, hv, hd⟩ := hduration d rfl
      refine ⟨_, .array _ ?_, .unique choices hd⟩
      simp [hframes, hv, Value.Proper.string]

/-- Compact steps are read by their grammar: a value is read as a step exactly if the rules say that
it denotes the step, and every other value is refused. Every step is denoted by a value that a text
can hold, unless it has an undefined fixed duration, which no text can give. -/
theorem ofJson_recognizes :
    (∀ (v : Value) (s : AuthoredStep), ofJson v = .ok s ↔ Denotes v s) ∧
      ∀ s : AuthoredStep, (∃ v : Value, v.Proper ∧ ofJson v = .ok s) ↔
        ∀ count, s.duration? = some (.fixed count) → count.isNaN = false := by
  refine ⟨fun v s => ofJson_eq_ok_iff, fun s => ⟨?_, fun h => ?_⟩⟩
  · rintro ⟨v, hproper, hread⟩ count hcount
    exact defined_of_denotes hproper (ofJson_eq_ok_iff.1 hread) hcount
  · obtain ⟨v, hproper, hdenotes⟩ := exists_denotes h
    exact ⟨v, hproper, ofJson_eq_ok_iff.2 hdenotes⟩

end AuthoredStep

end SpriteStage
