import SpriteStage.Proofs.Json.Quoted
import SpriteStage.Proofs.Json.Numeral
import SpriteStage.Json.Record
import SpriteStage.Json.Writer

/-!
# Texts that are read back

A text is read as a value when the reader takes the value off the front of any text that goes on
where a value ends (`Reads`). Strings, numbers and truth values are read so from what is written
for them. Between brackets a reader takes one text after the other; what it has made of them at the
end is described step by step (`Takes`), which covers arrays, objects and records alike.
-/

set_option autoImplicit false

namespace SpriteStage.Json

namespace Reader

variable {ε α β σ : Type} {r : Reader ε α} {cs tail rest text : List Char} {a : α}

/-! ## Single steps -/

theorem bind_of_ok {t : List Char} (f : α → Reader ε β) (h : r cs = .ok (a, t)) :
    (r >>= f) cs = f a t := by
  change Except.bind (r cs) _ = _
  rw [h]
  rfl

theorem peek_cons {c : Char} (h : isBlank c = false) :
    (peek : Reader ε Char) (c :: rest) = .ok (c, c :: rest) := by
  simp [peek, skipBlank, h]

theorem expect_cons {c : Char} (h : isBlank c = false) :
    (expect c : Reader ε Unit) (c :: rest) = .ok ((), rest) := by
  simp [expect, skipBlank, h]

/-- A character with which the text of a value starts. -/
def Opens (c : Char) : Prop := isBlank c = false ∧ c ≠ ']' ∧ c ≠ '}'

instance (c : Char) : Decidable (Opens c) := inferInstanceAs (Decidable (_ ∧ _ ∧ _))

/-- The reader takes `a` off the front of every text that starts with `text` and goes on where a
value ends. -/
structure Reads (r : Reader ε α) (text : List Char) (a : α) : Prop where
  /-- The text is not empty, and starts neither with a blank nor with a closing bracket. -/
  opens : ∃ c t, text = c :: t ∧ Opens c
  /-- The reader takes just the text. -/
  ok : ∀ {rest : List Char}, Closed rest → r (text ++ rest) = .ok (a, rest)

theorem Reads.length_pos (h : Reads r text a) : 0 < text.length := by
  obtain ⟨c, t, rfl, -⟩ := h.opens
  exact Nat.succ_pos _

/-- What is made of the value is made of the text. -/
theorem Reads.bind {f : α → Reader ε β} {b : β} (h : Reads r text a)
    (hf : ∀ rest, f a rest = .ok (b, rest)) : Reads (r >>= f) text b :=
  ⟨h.opens, fun hrest => (bind_of_ok f (h.ok hrest)).trans (hf _)⟩

/-- A reader may look at the first character before it reads. -/
theorem Reads.peek {f : Char → Reader ε α} {c : Char} {t : List Char}
    (h : Reads (f c) (c :: t) a) : Reads (peek >>= f) (c :: t) a := by
  refine ⟨h.opens, fun hrest => ?_⟩
  obtain ⟨d, u, htext, hopens, -⟩ := h.opens
  cases htext
  exact (bind_of_ok f (peek_cons hopens)).trans (h.ok hrest)

/-! ## Scalars -/

theorem string_encode (s : String) (rest : List Char) :
    (string : Reader ε String) (Quoted.encode s ++ rest) = .ok (s, rest) := by
  obtain ⟨pieces, hscan, hdecode⟩ := Quoted.exists_scan_escape s.toList rest
  -- the opening quote is taken first; scanning starts behind it
  have htext : Quoted.encode s ++ rest =
      '"' :: (s.toList.flatMap Quoted.escape ++ '"' :: rest) := by
    simp [Quoted.encode]
  rw [htext, string, bind_of_ok _ (expect_cons (by decide)), bind_of_ok (a := pieces) (t := rest)]
  · simp only [hdecode, require]
    exact congrArg (fun t => Except.ok (t, rest)) (String.ofList_toList)
  · simp [hscan]

theorem reads_string (s : String) : Reads (string : Reader ε String) (Quoted.encode s) s :=
  ⟨⟨'"', _, rfl, by decide⟩, fun _ => string_encode s _⟩

theorem memberName_encode (s : String) (rest : List Char) :
    (memberName : Reader ε String) (Quoted.encode s ++ ':' :: rest) = .ok (s, rest) := by
  rw [memberName, bind_of_ok _ (string_encode s _), bind_of_ok _ (expect_cons (by decide))]
  rfl

theorem reads_bool (b : Bool) : Reads (bool : Reader ε Bool) (boolText b) b := by
  cases b with
  | true => exact ⟨⟨'t', _, rfl, by decide⟩, fun _ => rfl⟩
  | false => exact ⟨⟨'f', _, rfl, by decide⟩, fun _ => rfl⟩

/-- A number does not start with any other character. -/
theorem opens_of_isNumeric {c : Char} (h : Decimal.IsNumeric c) : Opens c :=
  ⟨h.isBlank, h.ne (by decide), h.ne (by decide)⟩

theorem reads_number {l : Literal} {n : Number} (hscan : Literal.scan text = some (l, []))
    (hvalue : l.toNumber? = some n) : Reads (number : Reader ε Number) text n := by
  obtain ⟨c, t, rfl, hc⟩ := Literal.head_of_scan hscan
  have hopens := opens_of_isNumeric hc
  refine ⟨⟨c, t, rfl, hopens⟩, fun {rest} hrest => ?_⟩
  have htaken : (scanned Literal.scan : Reader ε Literal) (c :: t ++ rest) = .ok (l, rest) := by
    have hblank : skipBlank (c :: t ++ rest) = c :: t ++ rest := by
      simp [skipBlank, hopens.1]
    simp only [scanned, hblank, Literal.local_scan.append hscan hrest, List.nil_append]
  rw [number, bind_of_ok _ htaken, hvalue]
  rfl

theorem reads_naturalText {n : Nat} (h : n < UInt64.size) :
    Reads (number : Reader ε Number) (naturalText n) (.natural n.toUInt64) := by
  refine reads_number ?_ (Literal.toNumber?_digitsOf h)
  have hscan : Literal.scan (naturalText n ++ []) = some (_, []) := Literal.scan_numeral n trivial
  rwa [List.append_nil] at hscan

theorem reads_word (n : UInt32) : Reads (word : Reader ε UInt32) (naturalText n.toNat) n := by
  have hlt : n.toNat < UInt64.size := Nat.lt_trans n.toNat_lt (by decide)
  refine (reads_naturalText hlt).bind fun rest => ?_
  have hword : (Value.number (.natural n.toNat.toUInt64)).word? = some n := by
    simp [Value.word?, Value.natural?, n.toNat_lt]
  rw [hword]
  rfl

/-! ## Brackets -/

variable {item : σ → Reader ε σ} {s s' : σ} {texts : List (List Char)} {opening close : Char}

/-- A closing bracket. -/
def Closes (c : Char) : Prop := c = ']' ∨ c = '}'

theorem Closes.isBlank (h : Closes close) : isBlank close = false := by
  rcases h with rfl | rfl <;> decide

theorem Closes.ne_comma (h : Closes close) : close ≠ ',' := by
  rcases h with rfl | rfl <;> decide

theorem Closes.ne_of_opens {c : Char} (h : Closes close) (hc : Opens c) : c ≠ close := by
  rcases h with rfl | rfl
  · exact hc.2.1
  · exact hc.2.2

theorem Closes.closed (h : Closes close) : Closed (close :: rest) := Or.inr h

theorem closed_comma : Closed (',' :: rest) := Or.inl rfl

/-- An item reader makes `s'` of `s` when it reads the texts one after the other. -/
inductive Takes (item : σ → Reader ε σ) : σ → List (List Char) → σ → Prop where
  /-- Nothing is read. -/
  | nil (s : σ) : Takes item s [] s
  /-- One more text is read first. -/
  | cons {s s' s'' : σ} {text : List Char} {texts : List (List Char)}
      (first : Reads (item s) text s') (others : Takes item s' texts s'') :
      Takes item s (text :: texts) s''

/-- Texts separated by commas. -/
def joined (texts : List (List Char)) : List Char := (texts.intersperse [',']).flatten

theorem joined_nil : joined [] = [] := rfl

theorem joined_cons_cons (text next : List Char) (texts : List (List Char)) :
    joined (text :: next :: texts) = text ++ ',' :: joined (next :: texts) := by
  simp [joined, List.intersperse]

theorem joined_singleton (text : List Char) : joined [text] = text := by
  simp [joined]

/-- Every item takes up some of the text. -/
theorem Takes.length_le (h : Takes item s texts s') : texts.length ≤ (joined texts).length := by
  induction h with
  | nil s => exact Nat.zero_le _
  | @cons s s' s'' text texts first others ih =>
      have hpos := first.length_pos
      cases texts with
      | nil => simpa [joined_singleton] using Nat.succ_le_of_lt hpos
      | cons next texts =>
          simp only [joined_cons_cons, List.length_append, List.length_cons] at ih ⊢
          omega

/-- The items are read up to the closing bracket, which follows the last of them. -/
theorem Takes.items (hclose : Closes close) (h : Takes item s texts s') (hsome : texts ≠ [])
    {limit : Nat} (hlimit : texts.length ≤ limit) :
    items close item limit s (joined texts ++ close :: rest) = .ok (s', rest) := by
  induction h generalizing limit with
  | nil s => exact absurd rfl hsome
  | @cons s s' s'' text texts first others ih =>
      obtain ⟨limit, rfl⟩ : ∃ n, limit = n + 1 := ⟨limit - 1, by simp at hlimit; omega⟩
      rw [Reader.items]
      cases texts with
      | nil =>
          -- after the last item comes the bracket, which is no comma
          cases others
          rw [joined_singleton, bind_of_ok _ (first.ok hclose.closed),
            bind_of_ok _ (peek_cons hclose.isBlank), if_neg hclose.ne_comma,
            bind_of_ok _ (expect_cons hclose.isBlank)]
          rfl
      | cons next texts =>
          rw [joined_cons_cons, List.append_assoc, List.cons_append,
            bind_of_ok _ (first.ok closed_comma), bind_of_ok _ (peek_cons (by decide)), if_pos rfl,
            bind_of_ok _ (expect_cons (by decide))]
          exact ih (List.cons_ne_nil _ _) (Nat.le_of_succ_le_succ hlimit)

theorem Takes.opens (h : Takes item s texts s') (hsome : texts ≠ []) :
    ∃ c t, joined texts = c :: t ∧ Opens c := by
  cases h with
  | nil => exact absurd rfl hsome
  | @cons _ _ _ text texts first others =>
      obtain ⟨c, t, rfl, hc⟩ := first.opens
      cases texts with
      | nil => exact ⟨c, t, joined_singleton _, hc⟩
      | cons next texts => exact ⟨c, _, joined_cons_cons _ _ _, hc⟩

/-- Texts between brackets are read one after the other. -/
theorem Takes.bracketed (hopening : Opens opening) (hclose : Closes close)
    (h : Takes item s texts s') :
    Reads (bracketed opening close item s) (Json.bracketed opening close texts) s' := by
  refine ⟨⟨opening, _, rfl, hopening⟩, fun {rest} _ => ?_⟩
  have htext : Json.bracketed opening close texts ++ rest =
      opening :: (joined texts ++ close :: rest) := by
    simp [Json.bracketed, joined]
  rw [htext, Reader.bracketed, bind_of_ok _ (expect_cons hopening.1)]
  -- a bracket that follows at once is seen by looking ahead; an item never starts like that
  by_cases hsome : texts = []
  · subst hsome
    cases h
    rw [joined_nil, List.nil_append, bind_of_ok _ (peek_cons hclose.isBlank), if_pos rfl]
    exact bind_of_ok _ (expect_cons hclose.isBlank)
  · have hlimit : texts.length ≤ (joined texts ++ close :: rest).length := by
      have hlength := h.length_le
      rw [List.length_append]
      omega
    have hitems : Reader.items close item (joined texts ++ close :: rest).length s
        (joined texts ++ close :: rest) = .ok (s', rest) := h.items hclose hsome hlimit
    obtain ⟨c, t, hjoined, hc⟩ := h.opens hsome
    rw [hjoined, List.cons_append] at hitems ⊢
    rw [bind_of_ok _ (peek_cons hc.1), if_neg (hclose.ne_of_opens hc)]
    exact hitems

/-! ## Arrays and objects -/

/-- An array of texts is read item by item. -/
theorem reads_list {r : Reader ε α} (write : α → List Char) (xs : List α)
    (h : ∀ x ∈ xs, Reads r (write x) x) : Reads (list r) (arrayText (xs.map write)) xs := by
  -- items are put in front of those that came before
  have htakes : ∀ done : List α,
      Takes (fun done => return (← r) :: done) done (xs.map write) (xs.reverse ++ done) := by
    induction xs with
    | nil => exact fun done => Takes.nil done
    | cons x xs ih =>
        intro done
        have hfirst : Reads (do return (← r) :: done) (write x) (x :: done) :=
          (h x List.mem_cons_self).bind fun _ => rfl
        have hothers := ih (fun y hy => h y (List.mem_cons_of_mem x hy)) (x :: done)
        rw [List.reverse_cons, List.append_assoc]
        exact Takes.cons hfirst hothers
  refine ((htakes []).bracketed (by decide) (Or.inl rfl)).bind fun rest => ?_
  rw [List.append_nil, List.reverse_reverse]
  rfl

/-- The text of a member is read by its name first. -/
theorem Reads.member {f : String → Reader ε α} {name : String} (h : Reads (f name) text a) :
    Reads (memberName >>= f) (Quoted.encode name ++ ':' :: text) a := by
  refine ⟨⟨'"', _, rfl, by decide⟩, fun {rest} hrest => ?_⟩
  rw [List.append_assoc, List.cons_append, bind_of_ok _ (memberName_encode name _)]
  exact h.ok hrest

/-- An object of texts is read member by member. -/
theorem reads_members {r : Reader ε α} (write : β → List Char) (read : β → α)
    (ms : List (String × β)) (h : ∀ m ∈ ms, Reads r (write m.2) (read m.2)) :
    Reads (members r) (objectText (ms.map fun m => (m.1, write m.2)))
      (ms.map fun m => (m.1, read m.2)) := by
  have htakes : ∀ done : List (String × α),
      Takes (fun done => return (← memberName, ← r) :: done) done
        (ms.map fun m => Quoted.encode m.1 ++ ':' :: write m.2)
        ((ms.map fun m => (m.1, read m.2)).reverse ++ done) := by
    induction ms with
    | nil => exact fun done => Takes.nil done
    | cons m ms ih =>
        intro done
        have hfirst : Reads (do return (← memberName, ← r) :: done)
            (Quoted.encode m.1 ++ ':' :: write m.2) ((m.1, read m.2) :: done) :=
          Reads.member ((h m List.mem_cons_self).bind fun _ => rfl)
        have hothers := ih (fun n hn => h n (List.mem_cons_of_mem m hn)) ((m.1, read m.2) :: done)
        rw [List.map_cons, List.map_cons, List.reverse_cons, List.append_assoc]
        exact Takes.cons hfirst hothers
  rw [objectText, List.map_map]
  refine ((htakes []).bracketed (by decide) (Or.inr rfl)).bind fun rest => ?_
  rw [List.append_nil, List.reverse_reverse]
  rfl

/-! ## Values -/

/-- A text that opens no bracket is a scalar. -/
theorem Reads.value {c : Char} {t : List Char} {v : Value}
    (h : Reads (scalar : Reader ε Value) (c :: t) v) (harray : c ≠ '[') (hobject : c ≠ '{')
    (nesting : Nat) : Reads (value nesting : Reader ε Value) (c :: t) v := by
  cases nesting with
  | zero => exact h
  | succ nesting =>
      refine Reads.peek ?_
      rwa [if_neg harray, if_neg hobject]

theorem reads_value_string (s : String) (nesting : Nat) :
    Reads (value nesting : Reader ε Value) (Quoted.encode s) (.string s) := by
  refine Reads.value (Reads.peek ?_) (by decide) (by decide) nesting
  exact (reads_string s).bind fun _ => rfl

theorem reads_value_bool (b : Bool) (nesting : Nat) :
    Reads (value nesting : Reader ε Value) (boolText b) (.bool b) := by
  have hread : Reads (do return Value.bool (← bool) : Reader ε Value) (boolText b) (.bool b) :=
    (reads_bool b).bind fun _ => rfl
  cases b with
  | true =>
      refine Reads.value (c := 't') (Reads.peek ?_) (by decide) (by decide) nesting
      exact hread
  | false =>
      refine Reads.value (c := 'f') (Reads.peek ?_) (by decide) (by decide) nesting
      exact hread

theorem reads_value_number {l : Literal} {n : Number} (hscan : Literal.scan text = some (l, []))
    (hvalue : l.toNumber? = some n) (nesting : Nat) :
    Reads (value nesting : Reader ε Value) text (.number n) := by
  have hread : Reads (do return Value.number (← number) : Reader ε Value) text (.number n) :=
    (reads_number hscan hvalue).bind fun _ => rfl
  obtain ⟨c, t, rfl, hc⟩ := Literal.head_of_scan hscan
  refine Reads.value (Reads.peek ?_) (hc.ne (by decide)) (hc.ne (by decide)) nesting
  rw [if_neg (hc.ne (by decide)), if_neg (hc.ne (by decide)), if_neg]
  · exact hread
  · rintro (rfl | rfl)
    · exact absurd hc (by decide)
    · exact absurd hc (by decide)

/-! ## Records -/

/-- A member of the object form fills the field of its name, if nothing has filled it before. -/
theorem Takes.field {fields : List (Field ε σ)} {name : String} {reader : Nat → Reader ε α}
    {get : σ → Option α} {set : σ → α → σ} {nesting : Nat}
    (hfield : fields.find? (·.name = name) = some (Field.of name reader get set))
    (hempty : get s = none) (first : Reads (reader nesting) text a)
    (others : Takes (Record.member fields nesting) (set s a) texts s') :
    Takes (Record.member fields nesting) s ((Quoted.encode name ++ ':' :: text) :: texts) s' := by
  refine Takes.cons (Reads.member ?_) others
  have hread : Reads ((Field.of name reader get set).read nesting s) text (set s a) :=
    first.bind fun _ => rfl
  simpa [hfield, Field.of, hempty] using hread

/-- A record is read from its object form. -/
theorem reads_record {fields : List (Field ε σ)} {nesting : Nat} {ms : List (String × List Char)}
    (h : Takes (Record.member fields nesting) s
      (ms.map fun m => Quoted.encode m.1 ++ ':' :: m.2) s') :
    Reads (Record.read fields s (nesting + 1)) (objectText ms) s' :=
  Reads.peek (h.bracketed (by decide) (Or.inr rfl))

/-! ## Whole texts -/

theorem Reads.run (h : Reads r text a) : r.run (String.ofList text) = .ok a := by
  have hok : r (text ++ []) = .ok (a, []) := h.ok trivial
  rw [List.append_nil] at hok
  simp only [Reader.run, String.toList_ofList, hok]
  rfl

theorem exists_of_bind_eq_ok {f : α → Reader ε β} {b : β} (h : (r >>= f) cs = .ok (b, rest)) :
    ∃ a tail, r cs = .ok (a, tail) ∧ f a tail = .ok (b, rest) := by
  change Except.bind (r cs) _ = _ at h
  cases hr : r cs with
  | error e =>
      rw [hr] at h
      cases h
  | ok p =>
      rw [hr] at h
      exact ⟨p.1, p.2, rfl, h⟩

theorem exists_of_run_eq_ok (h : r.run (String.ofList text) = .ok a) :
    ∃ tail, r text = .ok (a, tail) ∧ skipBlank tail = [] := by
  simp only [Reader.run, String.toList_ofList] at h
  cases hr : r text with
  | error e =>
      rw [hr] at h
      cases h
  | ok p =>
      rw [hr] at h
      simp only at h
      split at h
      · next hblank =>
          cases h
          exact ⟨p.2, rfl, hblank⟩
      · cases h

theorem skipBlank_of_forall (h : ∀ c ∈ cs, isBlank c = false) : skipBlank cs = cs := by
  cases cs with
  | nil => rfl
  | cons c cs => simp [skipBlank, h c List.mem_cons_self]

/-- A text without blanks that is read as a number in single precision is one literal. -/
theorem exists_literal_of_run {x : Float32} (hblank : ∀ c ∈ text, isBlank c = false)
    (h : (single : Reader ε Float32).run (String.ofList text) = .ok x) :
    ∃ l n, Literal.scan text = some (l, []) ∧ l.toNumber? = some n ∧ n.toSingle = x := by
  obtain ⟨tail, hsingle, htail⟩ := exists_of_run_eq_ok h
  obtain ⟨n, left, hnumber, hx⟩ := exists_of_bind_eq_ok hsingle
  obtain ⟨l, after, hscanned, hvalue⟩ := exists_of_bind_eq_ok hnumber
  cases hx
  simp only [scanned, skipBlank_of_forall hblank] at hscanned
  split at hscanned
  · cases hscanned
  · next hscan =>
      cases hscanned
      cases hsome : l.toNumber? with
      | none =>
          rw [hsome] at hvalue
          cases hvalue
      | some m =>
          rw [hsome] at hvalue
          cases hvalue
          -- what is left over has no blanks, and nothing but blanks
          have hnone : skipBlank tail = tail :=
            skipBlank_of_forall fun c hc => hblank c ((Literal.local_scan.suffix hscan).subset hc)
          rw [← hnone, htail] at hscan
          exact ⟨l, n, hscan, hsome, rfl⟩

end Reader

end SpriteStage.Json
