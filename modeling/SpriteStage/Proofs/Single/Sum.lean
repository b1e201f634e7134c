import SpriteStage.Proofs.Single.Rounding

/-!
# Sums and differences

The exact sum of two finite numbers is a whole number of units, and the sum that is computed is
what these are rounded to (`rounds_add`); a difference is a sum with the other sign (`sub_eq_add`).
Two facts are drawn from that: a sum that needs few digits is exact (`Rounds.units_eq`), and adding
what is not negative never lowers a number (`le_add`).
-/

set_option autoImplicit false

namespace SpriteStage.Single

open Float.Model (Format UnpackedFloat)
open Float.Model.UnpackedFloat

/-- A number is the rounding of so many units. -/
structure Rounds (n : Int) (x : Float32) : Prop where
  /-- No units give a zero. -/
  zero : n = 0 → ∃ s, parts x = .zero s
  /-- Units above zero. -/
  pos : 0 < n → IsRounding .positive n.toNat x
  /-- Units below zero. -/
  neg : n < 0 → IsRounding .negative (-n).toNat x

theorem zero_or_finite_of_isFinite {x : Float32} (h : x.isFinite = true) :
    (∃ s, parts x = .zero s) ∨ ∃ s m e hm, parts x = .finite s m e hm := by
  rw [isFinite_eq] at h
  cases hp : parts x with
  | notANumber => rw [hp] at h; exact absurd h Bool.false_ne_true
  | infinity s => rw [hp] at h; exact absurd h Bool.false_ne_true
  | zero s => exact Or.inl ⟨s, rfl⟩
  | finite s m e hm => exact Or.inr ⟨s, m, e, hm, rfl⟩

theorem units_zero (s : Sign) : units (.zero s) = 0 := by
  cases s <;> rfl

theorem apply_mul (s : Sign) (a b : Int) : s.apply a * b = s.apply (a * b) := by
  cases s with
  | negative => exact Int.neg_mul a b
  | positive => rfl

theorem IsRounding.rounds {s : Sign} {n : Nat} {x : Float32} (h : IsRounding s n x) (hn : 0 < n) :
    Rounds (s.apply (n : Int)) x := by
  cases s with
  | positive =>
      have hpos : (0 : Int) < n := by omega
      refine ⟨fun h0 => ?_, fun _ => h, fun hneg => ?_⟩
      · exact absurd (show (n : Int) = 0 from h0) (by omega)
      · exact absurd (show (n : Int) < 0 from hneg) (by omega)
  | negative =>
      refine ⟨fun h0 => ?_, fun hpos => ?_, fun _ => ?_⟩
      · exact absurd (show -(n : Int) = 0 from h0) (by omega)
      · exact absurd (show 0 < -(n : Int) from hpos) (by omega)
      · show IsRounding .negative (- -(n : Int)).toNat x
        rw [Int.neg_neg]
        exact h

/-- A finite number is the rounding of its own units. -/
theorem rounds_self {x : Float32} (h : x.isFinite = true) : Rounds (units (parts x)) x := by
  have henc := encodable_parts x
  have hdvd := two_pow_dvd_of_encodable henc
  have hself : ∀ s m e hm, parts x = .finite s m e hm →
      IsRounding s (digits (parts x) * 2 ^ scale (parts x)) x := by
    intro s m e hm hp
    refine ⟨isNaN_eq_false_of_isFinite h, by rw [hp]; rfl,
      digits (parts x) * 2 ^ scale (parts x) /
        2 ^ ((digits (parts x) * 2 ^ scale (parts x)).log2 - 23), Nat.le_refl _, Nat.le_succ _,
      fun _ => rfl, ?_⟩
    have hle := magnitude_le_limit henc
    rw [Nat.div_mul_cancel hdvd, Nat.min_eq_left hle]
    unfold units
    rw [hp]
    rfl
  rcases zero_or_finite_of_isFinite h with ⟨s, hp⟩ | ⟨s, m, e, hm, hp⟩
  · have hz : units (parts x) = 0 := by rw [hp, units_zero]
    exact ⟨fun _ => ⟨s, hp⟩, fun hpos => by omega, fun hneg => by omega⟩
  · have hround := hself s m e hm hp
    have hpos : 0 < digits (parts x) * 2 ^ scale (parts x) := by
      rw [hp]
      exact Nat.mul_pos hm (Nat.two_pow_pos _)
    have hunits : units (parts x) =
        s.apply ((digits (parts x) * 2 ^ scale (parts x) : Nat) : Int) := by
      unfold units
      rw [hp]
      rfl
    rw [hunits]
    exact hround.rounds hpos

theorem toNat_mul_natCast {m : Int} (hm : 0 ≤ m) (k : Nat) : (m * k).toNat = m.toNat * k := by
  obtain ⟨a, rfl⟩ := Int.eq_ofNat_of_zero_le hm
  rw [← Int.natCast_mul, Int.toNat_natCast, Int.toNat_natCast]

theorem rounds_normalize (m : Int) {e : Int} (he : -149 ≤ e) (s : Sign) :
    Rounds (m * 2 ^ (e + 149).toNat) (packed (UnpackedFloat.normalize Format.binary32 m e s)) := by
  have hpow : (0 : Int) < 2 ^ (e + 149).toNat := Int.pow_pos (by omega)
  have hcast : ((2 ^ (e + 149).toNat : Nat) : Int) = 2 ^ (e + 149).toNat := by
    rw [Int.natCast_pow]
    rfl
  unfold UnpackedFloat.normalize
  rcases Int.lt_trichotomy m 0 with hlt | heq | hgt
  · have hround := isRounding_round .negative (m := (-m).toNat) (by omega) he
    have hneg : m * 2 ^ (e + 149).toNat < 0 := Int.mul_neg_of_neg_of_pos hlt hpow
    have hnat : (-(m * 2 ^ (e + 149).toNat)).toNat = (-m).toNat * 2 ^ (e + 149).toNat := by
      rw [← Int.neg_mul, ← hcast, toNat_mul_natCast (by omega)]
    rw [Int.compare_eq_lt.2 hlt]
    refine ⟨fun h0 => by omega, fun h0 => by omega, fun _ => ?_⟩
    rw [hnat]
    exact hround
  · subst heq
    rw [Int.compare_eq_eq.2 rfl, Int.zero_mul]
    exact ⟨fun _ => ⟨s, parts_packed trivial⟩, fun h0 => by omega, fun h0 => by omega⟩
  · have hround := isRounding_round .positive (m := m.toNat) (by omega) he
    have hpos : 0 < m * 2 ^ (e + 149).toNat := Int.mul_pos hgt hpow
    have hnat : (m * 2 ^ (e + 149).toNat).toNat = m.toNat * 2 ^ (e + 149).toNat := by
      rw [← hcast, toNat_mul_natCast (by omega)]
    rw [Int.compare_eq_gt.2 hgt]
    refine ⟨fun h0 => by omega, fun _ => ?_, fun h0 => by omega⟩
    rw [hnat]
    exact hround

/-- A mantissa shifted to a lower exponent stands for the same units. -/
theorem apply_shift_mul (s : Sign) (m : Nat) {e k : Int} (hk : k ≤ e) (hlow : -149 ≤ k) :
    s.apply ((m <<< (e - k).toNat : Nat) : Int) * 2 ^ (k + 149).toNat =
      s.apply ((m * 2 ^ (e + 149).toNat : Nat) : Int) := by
  have hexp : (e + 149).toNat = (e - k).toNat + (k + 149).toNat := by omega
  rw [apply_mul, Nat.shiftLeft_eq, hexp, Nat.pow_add, ← Nat.mul_assoc, Int.natCast_mul (m * _),
    Int.natCast_pow 2 (k + 149).toNat]
  rfl

theorem add_zeros (s t : Sign) :
    ∃ u, UnpackedFloat.add Format.binary32 (.zero s) (.zero t) = .zero u := by
  cases s <;> cases t <;> exact ⟨_, rfl⟩

theorem add_eq_right {x y : Float32} {s t : Sign} {n : Nat} {f : Int} {hn : 0 < n}
    (hx : parts x = .zero s) (hy : parts y = .finite t n f hn) : x + y = y := by
  rw [add_eq, hx, hy]
  show packed (.finite t n f hn) = y
  rw [← hy, packed_parts]

theorem add_eq_left {x y : Float32} {s t : Sign} {m : Nat} {e : Int} {hm : 0 < m}
    (hx : parts x = .finite s m e hm) (hy : parts y = .zero t) : x + y = x := by
  rw [add_eq, hx, hy]
  show packed (.finite s m e hm) = x
  rw [← hx, packed_parts]

/-- Both mantissas are shifted to the lower exponent, which loses no digit, and added there. -/
theorem exists_add_eq_normalize {x y : Float32} {s t : Sign} {m n : Nat} {e f : Int} {hm : 0 < m}
    {hn : 0 < n} (hx : parts x = .finite s m e hm) (hy : parts y = .finite t n f hn) :
    ∃ k : Int, ∃ sum : Int, -149 ≤ k ∧
      sum * 2 ^ (k + 149).toNat = units (parts x) + units (parts y) ∧
        x + y = packed (UnpackedFloat.normalize Format.binary32 sum k .positive) := by
  have henx := encodable_parts x
  have heny := encodable_parts y
  rw [hx] at henx
  rw [hy] at heny
  have hk : -149 ≤ min e f := by
    have he := henx.2.1
    have hf := heny.2.1
    omega
  refine ⟨min e f, s.apply ((m <<< (e - min e f).toNat : Nat) : Int) +
    t.apply ((n <<< (f - min e f).toNat : Nat) : Int), hk, ?_, ?_⟩
  · rw [Int.add_mul, apply_shift_mul s m (by omega) hk, apply_shift_mul t n (by omega) hk, hx, hy]
    rfl
  · rw [add_eq, hx, hy]
    rfl

/-- A computed sum is the rounding of the sum of the units. -/
theorem rounds_add {x y : Float32} (hx : x.isFinite = true) (hy : y.isFinite = true) :
    Rounds (units (parts x) + units (parts y)) (x + y) := by
  have hxs := rounds_self hx
  have hys := rounds_self hy
  rcases zero_or_finite_of_isFinite hx with ⟨s, hpx⟩ | ⟨s, m, e, hm, hpx⟩
  · rcases zero_or_finite_of_isFinite hy with ⟨t, hpy⟩ | ⟨t, n, f, hn, hpy⟩
    · rw [add_eq, hpx, hpy, units_zero, units_zero]
      refine ⟨fun _ => ?_, fun h0 => by omega, fun h0 => by omega⟩
      obtain ⟨u, hu⟩ := add_zeros s t
      rw [hu]
      exact ⟨u, parts_packed trivial⟩
    · rw [add_eq_right hpx hpy, hpx, units_zero, Int.zero_add]
      exact hys
  · rcases zero_or_finite_of_isFinite hy with ⟨t, hpy⟩ | ⟨t, n, f, hn, hpy⟩
    · rw [add_eq_left hpx hpy, hpy, units_zero, Int.add_zero]
      exact hxs
    · obtain ⟨k, sum, hk, hunits, hsum⟩ := exists_add_eq_normalize hpx hpy
      rw [hsum, ← hunits]
      exact rounds_normalize sum hk .positive

/-! ## Exact sums -/

theorem Rounds.defined {n : Int} {x : Float32} (h : Rounds n x) : x.isNaN = false := by
  rcases Int.lt_trichotomy n 0 with hlt | heq | hgt
  · exact (h.neg hlt).defined
  · obtain ⟨s, hs⟩ := h.zero heq
    rw [isNaN_eq_false_iff, hs]
    exact fun h => nomatch h
  · exact (h.pos hgt).defined

/-- Units that need no more than 24 digits are kept. -/
theorem Rounds.units_eq {n : Int} {x : Float32} (h : Rounds n x)
    (hdvd : 2 ^ (n.natAbs.log2 - 23) ∣ n.natAbs) (hlt : n.natAbs < limit) :
    units (parts x) = n := by
  rcases Int.lt_trichotomy n 0 with hneg | heq | hpos
  · have habs : n.natAbs = (-n).toNat := by omega
    rw [habs] at hdvd hlt
    rw [(h.neg hneg).units_eq hdvd hlt]
    show -((-n).toNat : Int) = n
    omega
  · obtain ⟨s, hs⟩ := h.zero heq
    rw [hs, units_zero, heq]
  · have habs : n.natAbs = n.toNat := by omega
    rw [habs] at hdvd hlt
    rw [(h.pos hpos).units_eq hdvd hlt]
    show (n.toNat : Int) = n
    omega

theorem natAbs_apply (s : Sign) (n : Nat) : (s.apply (n : Int)).natAbs = n := by
  cases s with
  | positive => exact Int.natAbs_natCast n
  | negative => exact (Int.natAbs_neg _).trans (Int.natAbs_natCast n)

theorem natAbs_units (u : UnpackedFloat) : (units u).natAbs = digits u * 2 ^ scale u :=
  natAbs_apply _ _

theorem isFinite_of_natAbs_units_lt {x : Float32} (hx : x.isNaN = false)
    (h : (units (parts x)).natAbs < limit) : x.isFinite = true := by
  rw [isNaN_eq_false_iff] at hx
  rw [natAbs_units] at h
  rw [isFinite_eq]
  cases hp : parts x with
  | notANumber => exact absurd hp hx
  | infinity s =>
      rw [hp, limit_eq 23 254 rfl] at h
      exact absurd h (Nat.lt_irrefl _)
  | zero s => rfl
  | finite s m e hm => rfl

/-! ## Differences -/

theorem encodable_neg {u : UnpackedFloat} (h : Encodable u) : Encodable (UnpackedFloat.neg u) := by
  cases u with
  | notANumber => trivial
  | infinity s => trivial
  | zero s => trivial
  | finite s m e hm => exact h

theorem parts_neg (x : Float32) : parts (-x) = UnpackedFloat.neg (parts x) :=
  parts_packed (encodable_neg (encodable_parts x))

theorem units_neg (u : UnpackedFloat) : units (UnpackedFloat.neg u) = -units u := by
  cases u with
  | notANumber => rfl
  | infinity s => cases s <;> rfl
  | zero s => cases s <;> rfl
  | finite s m e hm =>
      cases s with
      | positive => rfl
      | negative => exact (Int.neg_neg _).symm

theorem isFinite_neg {x : Float32} (h : x.isFinite = true) : (-x).isFinite = true := by
  rw [isFinite_eq, parts_neg]
  rcases zero_or_finite_of_isFinite h with ⟨s, hp⟩ | ⟨s, m, e, hm, hp⟩
  · rw [hp]
    rfl
  · rw [hp]
    rfl

theorem apply_sub_apply (s t : Sign) (a b : Int) : s.apply a - t.apply b = s.apply a + (-t).apply b := by
  cases t with
  | positive => exact Int.sub_eq_add_neg
  | negative =>
      show s.apply a - -b = s.apply a + b
      omega

/-- A difference is the sum with the other sign. -/
theorem sub_eq_add (x y : Float32) : x - y = x + -y := by
  rw [sub_eq, add_eq, parts_neg]
  congr 1
  cases parts x with
  | notANumber => cases parts y <;> rfl
  | infinity s => cases parts y <;> rfl
  | zero s => cases parts y <;> rfl
  | finite s m e hm =>
      cases parts y with
      | notANumber => rfl
      | infinity t => rfl
      | zero t => rfl
      | finite t n f hn =>
          show UnpackedFloat.normalize _ (s.apply _ - t.apply _) _ _ =
            UnpackedFloat.normalize _ (s.apply _ + (-t).apply _) _ _
          rw [apply_sub_apply]

/-- A computed difference is the rounding of the difference of the units. -/
theorem rounds_sub {x y : Float32} (hx : x.isFinite = true) (hy : y.isFinite = true) :
    Rounds (units (parts x) - units (parts y)) (x - y) := by
  have h := rounds_add hx (isFinite_neg hy)
  rw [parts_neg, units_neg, ← Int.sub_eq_add_neg, ← sub_eq_add] at h
  exact h

/-! ## Adding what is not negative -/

theorem add_infinity {x y : Float32} {s : Sign} (hx : parts x = .infinity s)
    (hy : y.isFinite = true) : x + y = x := by
  rw [add_eq, hx]
  rcases zero_or_finite_of_isFinite hy with ⟨t, hp⟩ | ⟨t, n, f, hn, hp⟩
  · rw [hp]
    show packed (.infinity s) = x
    rw [← hx, packed_parts]
  · rw [hp]
    show packed (.infinity s) = x
    rw [← hx, packed_parts]

/-- A sum of a number that is not below zero and a finite one that is not negative is defined and
not less than the first. -/
theorem le_add {x y : Float32} (hx : x.isNaN = false) (hx0 : 0 ≤ units (parts x))
    (hy : y.isFinite = true) (hy0 : 0 ≤ units (parts y)) : x ≤ x + y := by
  -- A sum with infinity is not a rounding; it is infinity again.
  by_cases hinf : ∃ s, parts x = .infinity s
  · obtain ⟨s, hs⟩ := hinf
    rw [add_infinity hs hy]
    exact le_refl hx
  · have hfinite : x.isFinite = true := by
      rw [isFinite_eq]
      cases hp : parts x with
      | notANumber => exact absurd hp ((isNaN_eq_false_iff x).1 hx)
      | infinity s => exact absurd ⟨s, hp⟩ hinf
      | zero s => rfl
      | finite s m e hm => rfl
    have hround := rounds_add hfinite hy
    rw [le_iff_units hx hround.defined]
    by_cases hsum : units (parts x) + units (parts y) = 0
    · obtain ⟨s, hs⟩ := hround.zero hsum
      rw [hs, units_zero]
      omega
    · have hpos : 0 < units (parts x) + units (parts y) := by omega
      have hnat := natAbs_units (parts x)
      have hle := (hround.pos hpos).le_units (encodable_parts x) (by omega)
      omega

theorem sign_eq_of_units_pos {u : UnpackedFloat} (h : 0 < units u) : sign u = .positive := by
  cases hs : sign u with
  | positive => rfl
  | negative =>
      unfold units at h
      rw [hs] at h
      exact absurd (show 0 < -((digits u * 2 ^ scale u : Nat) : Int) from h) (by omega)

/-- Adding what is not negative keeps the sign, so a sum that starts at zero is never negative
zero. -/
theorem sign_add {x y : Float32} (hx : sign (parts x) = .positive) (hy : y.isFinite = true)
    (hy0 : 0 ≤ units (parts y)) : sign (parts (x + y)) = .positive := by
  cases hp : parts x with
  | notANumber =>
      have hsum : UnpackedFloat.add Format.binary32 .notANumber (parts y) = .notANumber := by
        cases parts y <;> rfl
      rw [add_eq, hp, hsum]
      rfl
  | infinity s =>
      rw [add_infinity hp hy]
      exact hx
  | zero s =>
      rw [hp] at hx
      change s = .positive at hx
      subst hx
      rcases zero_or_finite_of_isFinite hy with ⟨t, hq⟩ | ⟨t, n, f, hn, hq⟩
      · rw [add_eq, hp, hq]
        cases t <;> rfl
      · -- The sum is the other number, which has digits, so it is above zero.
        have hpos : 0 < n * 2 ^ (f + 149).toNat := Nat.mul_pos hn (Nat.two_pow_pos _)
        have hnat := natAbs_units (parts y)
        rw [add_eq_right hp hq]
        rw [hq] at hnat hy0 ⊢
        change (units (.finite t n f hn)).natAbs = n * 2 ^ (f + 149).toNat at hnat
        exact sign_eq_of_units_pos (by omega)
  | finite s m e hm =>
      have hxf : x.isFinite = true := by
        rw [isFinite_eq, hp]
        rfl
      have hpos := Nat.mul_pos hm (Nat.two_pow_pos (e + 149).toNat)
      have hx0 : units (parts x) = ((m * 2 ^ (e + 149).toNat : Nat) : Int) := by
        rw [hp] at hx ⊢
        change s = .positive at hx
        subst hx
        rfl
      exact ((rounds_add hxf hy).pos (by omega)).sign_eq

theorem add_zero {x : Float32} (hx : sign (parts x) = .positive) : x + 0.0 = x := by
  have hzero : parts (0.0 : Float32) = .zero .positive := rfl
  have hsum : UnpackedFloat.add Format.binary32 (parts x) (.zero .positive) = parts x := by
    cases hp : parts x with
    | notANumber => rfl
    | infinity s => rfl
    | finite s m e hm => rfl
    | zero s =>
        rw [hp] at hx
        change s = .positive at hx
        subst hx
        rfl
  rw [add_eq, hzero, hsum, packed_parts]

theorem units_nonneg_of_sign {u : UnpackedFloat} (h : sign u = .positive) : 0 ≤ units u := by
  unfold units
  rw [h]
  exact Int.natCast_nonneg _

end SpriteStage.Single
