import Mathlib.Tactic

/-!
# UTF-16

Texts as sequences of code units, in which a surrogate may stand alone, and the characters
of those in which none does.
-/

namespace Flexi.Library.Utf16

def isLead (u : UInt16) : Bool := 0xD800 ≤ u.toNat && u.toNat < 0xDC00

def isTrail (u : UInt16) : Bool := 0xDC00 ≤ u.toNat && u.toNat < 0xE000

def isSurrogate (u : UInt16) : Bool := isLead u || isTrail u

/-- The units of a character, two beyond the basic plane. -/
def unitsOf (c : Char) : List UInt16 :=
  if c.toNat < 0x10000 then [UInt16.ofNat c.toNat]
  else [UInt16.ofNat (0xD800 + (c.toNat - 0x10000) / 0x400),
    UInt16.ofNat (0xDC00 + (c.toNat - 0x10000) % 0x400)]

def encode (cs : List Char) : List UInt16 := cs.flatMap unitsOf

/-- The character of a unit by itself; for a surrogate the replacement character stands in. -/
def single (u : UInt16) : Char := if isSurrogate u then '\uFFFD' else Char.ofNat u.toNat

/-- The character of two surrogates. -/
def pair (u v : UInt16) : Char :=
  Char.ofNat (0x10000 + (u.toNat - 0xD800) * 0x400 + (v.toNat - 0xDC00))

def decode : List UInt16 → List Char
  | [] => []
  | [u] => [single u]
  | u :: v :: us =>
    if isLead u && isTrail v then pair u v :: decode us else single u :: decode (v :: us)

/-- No surrogate stands alone. -/
def wellFormed : List UInt16 → Bool
  | [] => true
  | [u] => !isSurrogate u
  | u :: v :: us =>
    if isLead u && isTrail v then wellFormed us else !isSurrogate u && wellFormed (v :: us)

/-! ### One character -/

theorem toNat_ofNat {n : ℕ} (h : n < 65536) : (UInt16.ofNat n).toNat = n :=
  Nat.mod_eq_of_lt h

theorem surrogate_iff {u : UInt16} :
    isSurrogate u = true ↔ 0xD800 ≤ u.toNat ∧ u.toNat < 0xE000 := by
  simp only [isSurrogate, isLead, isTrail, Bool.or_eq_true, Bool.and_eq_true, decide_eq_true_eq]
  omega

theorem char_not_surrogate (c : Char) : c.toNat < 0xD800 ∨ 0xDFFF < c.toNat ∧ c.toNat < 0x110000 :=
  c.valid

theorem toNat_charOfNat {n : ℕ} (h : n < 0xD800 ∨ 0xDFFF < n ∧ n < 0x110000) :
    (Char.ofNat n).toNat = n := by
  rw [Char.ofNat, dif_pos h]
  rfl

theorem unitsOf_single {u : UInt16} (h : isSurrogate u = false) : unitsOf (single u) = [u] := by
  have hvalue : (Char.ofNat u.toNat).toNat = u.toNat := by
    have hno : ¬ (0xD800 ≤ u.toNat ∧ u.toNat < 0xE000) := by
      rw [← surrogate_iff, h]
      decide
    have hlt := u.toNat_lt
    exact toNat_charOfNat (by omega)
  have hlt := u.toNat_lt
  rw [single, if_neg (by simp [h]), unitsOf, hvalue, if_pos (by omega), UInt16.ofNat_toNat]

theorem unitsOf_single_surrogate {u : UInt16} (h : isSurrogate u = true) :
    unitsOf (single u) = [0xFFFD] := by
  rw [single, if_pos h]
  rfl

theorem isSurrogate_replacement : isSurrogate 0xFFFD = false := rfl

theorem unitsOf_pair {u v : UInt16} (hu : isLead u = true) (hv : isTrail v = true) :
    unitsOf (pair u v) = [u, v] := by
  simp only [isLead, isTrail, Bool.and_eq_true, decide_eq_true_eq] at hu hv
  have hvalue : (pair u v).toNat = 0x10000 + (u.toNat - 0xD800) * 0x400 + (v.toNat - 0xDC00) :=
    toNat_charOfNat (by omega)
  have hlead : 0xD800 + (0x10000 + (u.toNat - 0xD800) * 0x400 + (v.toNat - 0xDC00) - 0x10000) / 0x400 =
      u.toNat := by omega
  have htrail : 0xDC00 + (0x10000 + (u.toNat - 0xD800) * 0x400 + (v.toNat - 0xDC00) - 0x10000) % 0x400 =
      v.toNat := by omega
  rw [unitsOf, hvalue, if_neg (by omega), hlead, htrail, UInt16.ofNat_toNat, UInt16.ofNat_toNat]

/-! ### There and back -/

theorem isSurrogate_of_isLead {u : UInt16} (h : isLead u = true) : isSurrogate u = true := by
  rw [isSurrogate, h, Bool.true_or]

theorem decode_cons {u : UInt16} (h : isLead u = false) (us : List UInt16) :
    decode (u :: us) = single u :: decode us := by
  cases us with
  | nil => rfl
  | cons v us => simp [decode, h]

theorem encode_cons (c : Char) (cs : List Char) : encode (c :: cs) = unitsOf c ++ encode cs := rfl

theorem encode_single_eq_iff {u : UInt16} {cs : List Char} {us : List UInt16} :
    encode (single u :: cs) = u :: us ↔ isSurrogate u = false ∧ encode cs = us := by
  rw [encode_cons]
  cases h : isSurrogate u with
  | false => simp [unitsOf_single h]
  | true =>
    have hne : (0xFFFD : UInt16) ≠ u := by
      rintro rfl
      cases isSurrogate_replacement.symm.trans h
    simp [unitsOf_single_surrogate h, hne]

/-- Exactly the well-formed sequences survive. -/
theorem encode_decode_iff (us : List UInt16) : encode (decode us) = us ↔ wellFormed us = true := by
  induction us using decode.induct with
  | case1 => simp [decode, encode, wellFormed]
  | case2 u =>
    have hsingle : encode [single u] = [u] ↔ isSurrogate u = false ∧ encode [] = [] :=
      encode_single_eq_iff
    rw [decode, hsingle]
    simp [wellFormed, encode]
  | case3 u v us hpair ih =>
    obtain ⟨hu, hv⟩ := Bool.and_eq_true_iff.mp hpair
    rw [decode, if_pos hpair, encode_cons, unitsOf_pair hu hv, wellFormed, if_pos hpair, ← ih]
    simp
  | case4 u v us hpair ih =>
    rw [decode, if_neg hpair, encode_single_eq_iff, ih, wellFormed, if_neg hpair]
    simp

theorem length_encode_decode (us : List UInt16) : (encode (decode us)).length = us.length := by
  have hsingle (u : UInt16) : (unitsOf (single u)).length = 1 := by
    cases h : isSurrogate u with
    | false => rw [unitsOf_single h, List.length_singleton]
    | true => rw [unitsOf_single_surrogate h, List.length_singleton]
  induction us using decode.induct with
  | case1 => rfl
  | case2 u => simp [decode, encode, hsingle]
  | case3 u v us hpair ih =>
    obtain ⟨hu, hv⟩ := Bool.and_eq_true_iff.mp hpair
    rw [decode, if_pos hpair, encode_cons, unitsOf_pair hu hv]
    simp [ih]
  | case4 u v us hpair ih =>
    rw [decode, if_neg hpair, encode_cons, List.length_append, hsingle, ih]
    simp [Nat.add_comm]

theorem decode_encode (cs : List Char) : decode (encode cs) = cs := by
  induction cs with
  | nil => rfl
  | cons c cs ih =>
    have hvalid := char_not_surrogate c
    rw [encode_cons, unitsOf]
    by_cases hbasic : c.toNat < 0x10000
    · have hvalue : (UInt16.ofNat c.toNat).toNat = c.toNat := toNat_ofNat (by omega)
      have hno : isSurrogate (UInt16.ofNat c.toNat) = false := by
        rw [← Bool.not_eq_true, surrogate_iff, hvalue]
        omega
      have hlead : isLead (UInt16.ofNat c.toNat) = false := by
        rw [← Bool.not_eq_true]
        intro h
        rw [isSurrogate_of_isLead h] at hno
        cases hno
      have hsingle : single (UInt16.ofNat c.toNat) = c := by
        rw [single, if_neg (by simp [hno]), hvalue, Char.ofNat_toNat]
      rw [if_pos hbasic, List.singleton_append, decode_cons hlead, ih, hsingle]
    · have hu : (UInt16.ofNat (0xD800 + (c.toNat - 0x10000) / 0x400)).toNat =
          0xD800 + (c.toNat - 0x10000) / 0x400 := toNat_ofNat (by omega)
      have hv : (UInt16.ofNat (0xDC00 + (c.toNat - 0x10000) % 0x400)).toNat =
          0xDC00 + (c.toNat - 0x10000) % 0x400 := toNat_ofNat (by omega)
      have hpair : (isLead (UInt16.ofNat (0xD800 + (c.toNat - 0x10000) / 0x400)) &&
          isTrail (UInt16.ofNat (0xDC00 + (c.toNat - 0x10000) % 0x400))) = true := by
        simp only [isLead, isTrail, hu, hv, Bool.and_eq_true, decide_eq_true_eq]
        omega
      have hsum : 0x10000 + (0xD800 + (c.toNat - 0x10000) / 0x400 - 0xD800) * 0x400 +
          (0xDC00 + (c.toNat - 0x10000) % 0x400 - 0xDC00) = c.toNat := by omega
      rw [if_neg hbasic]
      simp only [List.cons_append, List.nil_append]
      rw [decode, if_pos hpair, ih, pair, hu, hv, hsum, Char.ofNat_toNat]

/-- A text has the units exactly when they are well formed and it is what they decode to. -/
theorem encode_eq_iff {cs : List Char} {us : List UInt16} :
    encode cs = us ↔ wellFormed us = true ∧ cs = decode us := by
  constructor
  · rintro rfl
    refine ⟨(encode_decode_iff _).mp ?_, (decode_encode cs).symm⟩
    rw [decode_encode]
  · rintro ⟨h, rfl⟩
    exact (encode_decode_iff us).mpr h

end Flexi.Library.Utf16
