import MediaLink.Binary64
import MediaLink.Proofs.DecimalText

namespace MediaLink.Binary64

theorem spacing_pos (n : Nat) : 0 < spacing n := Nat.two_pow_pos _

theorem roundQuotient_mul_right (num den : Nat) {k : Nat} (hk : 0 < k) :
    roundQuotient (num * k) (den * k) = roundQuotient num den := by
  have hstep : den * k * spacing (num / den) = den * spacing (num / den) * k :=
    Nat.mul_right_comm ..
  have hrest : 2 * (num * k % (den * spacing (num / den) * k)) =
      2 * (num % (den * spacing (num / den))) * k := by
    rw [Nat.mul_mod_mul_right, Nat.mul_assoc]
  simp only [roundQuotient, Nat.mul_div_mul_right _ _ hk, hstep, hrest, Nat.mul_lt_mul_right hk,
    Nat.mul_left_inj hk.ne']

theorem ofQuotient_mul_right (num den : Nat) {k : Nat} (hk : 0 < k) :
    ofQuotient (num * k) (den * k) = ofQuotient num den := by
  unfold ofQuotient
  simp only [roundQuotient_mul_right num den hk]

theorem ofQuotient_congr {num den num' den' : Nat} (hd : 0 < den) (hd' : 0 < den')
    (h : num * den' = num' * den) : ofQuotient num den = ofQuotient num' den' := by
  rw [← ofQuotient_mul_right num den hd', ← ofQuotient_mul_right num' den' hd, h,
    Nat.mul_comm den den']

theorem roundQuotient_of_dvd {u den : Nat} (h : spacing u ∣ u) (hd : 0 < den) :
    roundQuotient (u * den) den = u := by
  have hstep : 0 < den * spacing u := Nat.mul_pos hd (spacing_pos u)
  have hdvd : den * spacing u ∣ u * den := Nat.mul_comm u den ▸ Nat.mul_dvd_mul_left den h
  have hquotient : u * den / (den * spacing u) = u / spacing u := by
    rw [Nat.mul_comm u den, Nat.mul_div_mul_left _ _ hd]
  simp only [roundQuotient, Nat.mul_div_cancel _ hd, Nat.mod_eq_zero_of_dvd hdvd, hquotient,
    Nat.mul_zero, hstep, true_or, if_true]
  exact Nat.div_mul_cancel h

theorem ofQuotient_of_isFinite {u den : Nat} (h : IsFinite u) (hd : 0 < den) :
    ofQuotient (u * den) den = .finite u h := by
  have hround := roundQuotient_of_dvd h.1 hd
  rw [ofQuotient]
  simp only [hround, h.2, dif_pos]

theorem nearest_congr {n n' : Nat} {e e' : Int} (h : Decimal.SameValue n e n' e') :
    nearest n e = nearest n' e' := by
  rw [Decimal.SameValue] at h
  refine ofQuotient_congr (Nat.pow_pos (by decide)) (Nat.pow_pos (by decide)) ?_
  rw [Nat.mul_right_comm, h, Nat.mul_right_comm]

theorem roundQuotient_of_small {num den : Nat} (h : 2 * num < den) : roundQuotient num den = 0 := by
  have hq : num / den = 0 := Nat.div_eq_of_lt (by omega)
  have hs : spacing 0 = 1 := rfl
  simp only [roundQuotient, hq, hs, Nat.mul_one, Nat.mod_eq_of_lt (by omega : num < den), h,
    true_or, if_true]

theorem ofQuotient_of_small {num den : Nat} (h : 2 * num < den) : ofQuotient num den = zero := by
  have hround := roundQuotient_of_small h
  rw [ofQuotient]
  simp only [hround, bound_pos, dif_pos]
  rfl

theorem pow_le_roundQuotient {num den k : Nat} (h : 2 ^ k ≤ num / den) :
    2 ^ k ≤ roundQuotient num den := by
  have hq : num / den ≠ 0 := by
    have := Nat.two_pow_pos k
    omega
  have hk : k ≤ (num / den).log2 := (Nat.le_log2 hq).mpr h
  have hdvd : spacing (num / den) ∣ 2 ^ (num / den).log2 := Nat.pow_dvd_pow 2 (Nat.sub_le ..)
  have hfloor : 2 ^ k ≤ num / (den * spacing (num / den)) * spacing (num / den) := by
    calc 2 ^ k ≤ 2 ^ (num / den).log2 := Nat.pow_le_pow_right (by decide) hk
      _ = 2 ^ (num / den).log2 / spacing (num / den) * spacing (num / den) :=
        (Nat.div_mul_cancel hdvd).symm
      _ ≤ num / den / spacing (num / den) * spacing (num / den) :=
        Nat.mul_le_mul_right _ (Nat.div_le_div_right (Nat.log2_self_le hq))
      _ = num / (den * spacing (num / den)) * spacing (num / den) := by
        rw [Nat.div_div_eq_div_mul]
  simp only [roundQuotient]
  split
  · exact hfloor
  · rw [Nat.add_mul]
    exact Nat.le_add_right_of_le hfloor

theorem ofQuotient_of_large {num den : Nat} (h : bound ≤ num / den) :
    ofQuotient num den = .infinite := by
  have hround : ¬roundQuotient num den < bound := Nat.not_lt.mpr (pow_le_roundQuotient h)
  rw [ofQuotient]
  rw [dif_neg hround]

theorem pow_length_toDigits_le {n : Nat} (h : n ≠ 0) :
    10 ^ ((Nat.toDigits 10 n).length - 1) ≤ n := by
  have hpos := Nat.length_toDigits_pos (b := 10) (n := n)
  by_cases hd : (Nat.toDigits 10 n).length = 1
  · rw [hd]
    exact Nat.pos_of_ne_zero h
  · have hlt := Nat.length_toDigits_le_iff (n := n) (k := (Nat.toDigits 10 n).length - 1)
      (by decide : 1 < 10) (by omega)
    omega

theorem lt_pow_length_toDigits (n : Nat) : n < 10 ^ (Nat.toDigits 10 n).length :=
  (Nat.length_toDigits_le_iff (by decide) Nat.length_toDigits_pos).mp (Nat.le_refl _)

theorem two_pow_mul_le {a b k s t : Nat} (h : 2 ^ a ≤ 10 ^ b) (hs : s ≤ a * k) (ht : b * k ≤ t)
    (j : Nat) : 2 ^ s * 10 ^ j ≤ 10 ^ (t + j) := by
  calc 2 ^ s * 10 ^ j ≤ 2 ^ (a * k) * 10 ^ j :=
        Nat.mul_le_mul_right _ (Nat.pow_le_pow_right (by decide) hs)
    _ = (2 ^ a) ^ k * 10 ^ j := by rw [Nat.pow_mul]
    _ ≤ (10 ^ b) ^ k * 10 ^ j := Nat.mul_le_mul_right _ (Nat.pow_le_pow_left h k)
    _ = 10 ^ (b * k + j) := by rw [← Nat.pow_mul, Nat.pow_add]
    _ ≤ 10 ^ (t + j) := Nat.pow_le_pow_right (by decide) (Nat.add_le_add_right ht j)

/-- The format ends below `10 ^ 310`. -/
theorem two_pow_topExponent_le (j : Nat) : 2 ^ topExponent * 10 ^ j ≤ 10 ^ (310 + j) := by
  have hpow : 2 ^ 205 ≤ 10 ^ 62 := by decide
  have hs : topExponent ≤ 205 * 5 := by decide
  have ht : 62 * 5 ≤ 310 := by decide
  exact two_pow_mul_le hpow hs ht j

theorem two_mul_unitsPerOne_le (j : Nat) : 2 * unitsPerOne * 10 ^ j ≤ 10 ^ (330 + j) := by
  have hpow : 2 ^ 215 ≤ 10 ^ 65 := by decide
  have hs : leastExponent + 1 ≤ 215 * 5 := by decide
  have ht : 65 * 5 ≤ 330 := by decide
  have hdouble (k : Nat) : 2 * 2 ^ k = 2 ^ (k + 1) := Nat.pow_succ'.symm
  rw [unitsPerOne, hdouble]
  exact two_pow_mul_le hpow hs ht j

theorem nearest_of_large {n : Nat} {e : Int} (h0 : n ≠ 0)
    (h : 310 < e + (Nat.toDigits 10 n).length) : nearest n e = .infinite := by
  have hexponent : 310 + (-e).toNat ≤ (Nat.toDigits 10 n).length - 1 + e.toNat := by
    have hpos := Nat.length_toDigits_pos (b := 10) (n := n)
    omega
  have hvalue : 2 ^ topExponent * 10 ^ (-e).toNat ≤ n * 10 ^ e.toNat := by
    calc 2 ^ topExponent * 10 ^ (-e).toNat ≤ 10 ^ (310 + (-e).toNat) := two_pow_topExponent_le _
      _ ≤ 10 ^ ((Nat.toDigits 10 n).length - 1 + e.toNat) :=
          Nat.pow_le_pow_right (by decide) hexponent
      _ = 10 ^ ((Nat.toDigits 10 n).length - 1) * 10 ^ e.toNat := Nat.pow_add ..
      _ ≤ n * 10 ^ e.toNat := Nat.mul_le_mul_right _ (pow_length_toDigits_le h0)
  apply ofQuotient_of_large
  rw [Nat.le_div_iff_mul_le (Nat.pow_pos (by decide)), bound, Nat.pow_add, Nat.mul_assoc,
    Nat.mul_comm]
  exact Nat.mul_le_mul_right unitsPerOne hvalue

theorem nearest_of_small {n : Nat} {e : Int} (h : e + (Nat.toDigits 10 n).length < -330) :
    nearest n e = zero := by
  have hexponent : e.toNat = 0 := by omega
  apply ofQuotient_of_small
  rw [hexponent, Nat.pow_zero, Nat.mul_one]
  calc 2 * (n * unitsPerOne) = 2 * unitsPerOne * n := by
        rw [Nat.mul_comm n, Nat.mul_assoc]
    _ < 2 * unitsPerOne * 10 ^ (Nat.toDigits 10 n).length :=
        Nat.mul_lt_mul_of_pos_left (lt_pow_length_toDigits n)
          (Nat.mul_pos (by decide) (Nat.two_pow_pos _))
    _ ≤ 10 ^ (330 + (Nat.toDigits 10 n).length) := two_mul_unitsPerOne_le _
    _ ≤ 10 ^ (-e).toNat := Nat.pow_le_pow_right (by decide) (by omega)

theorem nearest_zero (e : Int) : nearest 0 e = zero := by
  apply ofQuotient_of_small
  rw [Nat.zero_mul, Nat.zero_mul]
  exact Nat.pow_pos (by decide)

/-- The shortcuts are taken only where rounding would give the same. -/
theorem ofDecimal_eq_nearest (n : Nat) (e : Int) : ofDecimal n e = nearest n e := by
  by_cases h0 : n = 0
  · rw [h0, nearest_zero]
    rfl
  simp only [ofDecimal]
  split
  case isTrue h =>
    exact (nearest_of_small (h.resolve_left h0)).symm
  case isFalse =>
    split
    case isTrue h => exact (nearest_of_large h0 h).symm
    case isFalse => rfl

theorem nearest_onGrid? {m : Binary64} {num den n : Nat} {e : Int}
    (h : onGrid? m num den e = some n) : nearest n e = m := by
  simp only [onGrid?] at h
  split at h
  case isTrue hup =>
    obtain rfl := Option.some.inj h
    exact hup.1
  case isFalse =>
    obtain ⟨hdown, h⟩ := Option.ite_none_right_eq_some.mp h
    exact Option.some.inj h ▸ hdown

theorem nearest_shortest? {m : Binary64} {num den fuel n : Nat} {e e' : Int}
    (h : shortest? m num den fuel e = some (n, e')) : nearest n e' = m := by
  induction fuel generalizing e with
  | zero => cases h
  | succ fuel ih =>
    rw [shortest?, Option.orElse_eq_some] at h
    obtain h | ⟨-, h⟩ := h
    · obtain ⟨k, hgrid, hk⟩ := Option.map_eq_some_iff.mp h
      obtain ⟨rfl, rfl⟩ := Prod.mk.inj hk
      exact nearest_onGrid? hgrid
    · exact ih h

theorem mul_five_pow_mul_two_pow (u k : Nat) : u * 5 ^ k * 2 ^ k = u * 10 ^ k := by
  rw [Nat.mul_assoc, ← Nat.mul_pow]

theorem nearest_expansion (u : Nat) (h : IsFinite u) :
    nearest (u * 5 ^ leastExponent) (-leastExponent) = .finite u h := by
  have hneg : (-(leastExponent : Int)).toNat = 0 := Int.toNat_neg_natCast _
  rw [nearest, hneg, Nat.pow_zero, Nat.mul_one, Int.neg_neg, Int.toNat_natCast, unitsPerOne,
    mul_five_pow_mul_two_pow]
  exact ofQuotient_of_isFinite h (Nat.pow_pos (by decide))

/-- What is printed of a magnitude reads back. -/
theorem nearest_shortest {m : Binary64} {n : Nat} {e : Int} (h : m.shortest = some (n, e)) :
    nearest n e = m := by
  unfold shortest at h
  split at h
  case h_1 => cases h
  case h_2 =>
    obtain ⟨rfl, rfl⟩ := Prod.mk.inj (Option.some.inj h)
    exact nearest_zero 0
  case h_3 u hu _ =>
    cases hs : shortest? (.finite u hu) u unitsPerOne 17 (scale u unitsPerOne - 1) with
    | none =>
      simp only [hs, Option.getD_none, Option.some.injEq, Prod.mk.injEq] at h
      obtain ⟨rfl, rfl⟩ := h
      exact nearest_expansion u hu
    | some d =>
      rw [hs] at h
      obtain rfl := Option.some.inj h
      exact nearest_shortest? hs

theorem shortest_eq_none {m : Binary64} : m.shortest = none ↔ m = .infinite := by
  constructor
  · intro h
    unfold shortest at h
    split at h
    · rfl
    · cases h
    · cases h
  · rintro rfl
    rfl

theorem magnitude?_text {m : Binary64} (h : m ≠ .infinite) :
    ∃ n e, Decimal.magnitude? m.text = some (n, e) ∧ ofDecimal n e = m := by
  rw [text]
  cases hs : m.shortest with
  | none => exact absurd (shortest_eq_none.mp hs) h
  | some d =>
    obtain ⟨n, e, hread, hsame⟩ := Decimal.magnitude?_positional d.1 d.2
    refine ⟨n, e, hread, ?_⟩
    rw [ofDecimal_eq_nearest, nearest_congr hsame]
    exact nearest_shortest hs

end MediaLink.Binary64
