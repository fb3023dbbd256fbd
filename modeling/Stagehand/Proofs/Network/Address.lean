import Stagehand.Network.Address
import Stagehand.Proofs.Text.Blank

/-!
# The dotted form of an address

**Grammar (`IsDotted`).** Four octets with points between them. An octet is one to three decimal
digits without a zero in front of another digit, and stands for a number below 256.

**Theorem (`parseChars?_eq_some_iff`, `isDotted_iff`).** What is read as an address is what the
grammar allows, and that is the text that is written for the address. So reading undoes writing
and accepts nothing else.

A number has one decimal form without zeros in front: digits behind a number that is not zero make
the decimal form of a larger one (`toDigits_append_of_digits`), and no decimal form but that of zero
begins with a zero (`head?_toDigits_ne`).
-/

namespace Stagehand

/-! ## Decimal digits -/

namespace Decimal

variable {c : Char} {cs : List Char}

theorem isDigit_iff : c.isDigit = true ↔ 48 ≤ c.toNat ∧ c.toNat ≤ 57 := by
  simp only [Char.isDigit, ge_iff_le, Bool.and_eq_true, decide_eq_true_eq, UInt32.le_iff_toNat_le]
  exact Iff.rfl

theorem digitChar_of_isDigit (h : c.isDigit = true) : Nat.digitChar (c.toNat - '0'.toNat) = c := by
  have hrange := isDigit_iff.1 h
  have hzero : '0'.toNat = 48 := rfl
  apply Char.toNat_inj.1
  rw [Nat.toNat_digitChar_of_lt_ten (by omega)]
  omega

theorem digitOfBase?_of_isDigit (h : c.isDigit = true) :
    digitOfBase? 10 c = some (c.toNat - '0'.toNat) := by
  have hrange := isDigit_iff.1 h
  have hzero : '0'.toNat = 48 := rfl
  rw [digitOfBase?, if_pos h, Option.filter_some, if_pos (by simpa using by omega)]

/-- Digits are read as the number that they write. -/
theorem readOnto?_of_digits (h : ∀ c ∈ cs, c.isDigit = true) (acc : Nat) :
    readOnto? 10 acc cs = some (Nat.ofDigitChars 10 cs acc) := by
  induction cs generalizing acc with
  | nil => rfl
  | cons c rest ih =>
    obtain ⟨hc, hrest⟩ := List.forall_mem_cons.1 h
    rw [readOnto?, digitOfBase?_of_isDigit hc, Nat.ofDigitChars_cons, Nat.mul_comm 10 acc]
    exact ih hrest _

theorem ofDigits?_of_digits (hne : cs ≠ []) (h : ∀ c ∈ cs, c.isDigit = true) :
    ofDigits? 10 cs = some (Nat.ofDigitChars 10 cs 0) := by
  cases cs with
  | nil => exact absurd rfl hne
  | cons c rest => exact readOnto?_of_digits h 0

/-- Digits behind a number that is not zero make the decimal form of the number that they go
on to write. -/
theorem toDigits_append_of_digits (h : ∀ c ∈ cs, c.isDigit = true) {acc : Nat} (hacc : 0 < acc) :
    Nat.toDigits 10 acc ++ cs = Nat.toDigits 10 (Nat.ofDigitChars 10 cs acc) := by
  induction cs generalizing acc with
  | nil => exact List.append_nil _
  | cons c rest ih =>
    obtain ⟨hc, hrest⟩ := List.forall_mem_cons.1 h
    have hrange := isDigit_iff.1 hc
    have hzero : '0'.toNat = 48 := rfl
    have hdigit : Nat.toDigits 10 (c.toNat - '0'.toNat) = [c] := by
      rw [Nat.toDigits_of_lt_base (by omega), digitChar_of_isDigit hc]
    calc Nat.toDigits 10 acc ++ c :: rest
        = (Nat.toDigits 10 acc ++ Nat.toDigits 10 (c.toNat - '0'.toNat)) ++ rest := by
          rw [hdigit, List.append_assoc, List.singleton_append]
      _ = Nat.toDigits 10 (10 * acc + (c.toNat - '0'.toNat)) ++ rest := by
          rw [Nat.toDigits_append_toDigits (by decide) hacc (by omega)]
      _ = Nat.toDigits 10 (Nat.ofDigitChars 10 (c :: rest) acc) := by
          rw [ih hrest (by omega), Nat.ofDigitChars_cons]

theorem head?_toDigits_ne {n : Nat} (hn : 0 < n) : (Nat.toDigits 10 n).head? ≠ some '0' := by
  induction n using Nat.strongRecOn with
  | ind n ih =>
    rcases Nat.lt_or_ge n 10 with hsmall | hlarge
    · rw [Nat.toDigits_of_lt_base hsmall, List.head?_cons, Ne, Option.some.injEq]
      intro hzero
      have hcode := Nat.toNat_digitChar_of_lt_ten hsmall
      rw [hzero] at hcode
      have hcodeZero : '0'.toNat = 48 := rfl
      omega
    · rw [Nat.toDigits_of_base_le (by decide) hlarge,
        List.head?_append_of_ne_nil _ Nat.toDigits_ne_nil]
      exact ih (n / 10) (by omega) (by omega)

end Decimal

namespace Network.Address

open Decimal

/-! ## Octets -/

/-- Decimal digits that write an octet, without a zero in front of another digit. -/
structure IsOctet (cs : List Char) (x : UInt8) : Prop where
  digits : ∀ c ∈ cs, c.isDigit = true
  notEmpty : cs ≠ []
  atMostThree : cs.length ≤ 3
  noLeadingZero : cs.head? = some '0' → cs.length = 1
  value : Nat.ofDigitChars 10 cs 0 = x.toNat

variable {cs : List Char} {x : UInt8}

theorem octet?_eq_some_iff : octet? cs = some x ↔ IsOctet cs x := by
  constructor
  · intro h
    rw [octet?] at h
    split at h
    · cases h
    next hlength =>
    split at h
    · cases h
    next hlead =>
    split at h
    · cases h
    next hall =>
    -- Past its three guards, `octet?` reads the digits and asks whether they fit.
    have hdigits : ∀ c ∈ cs, c.isDigit = true := by simpa using hall
    have hne : cs ≠ [] := by
      rintro rfl
      exact hlength rfl
    rw [ofDigits?_of_digits hne hdigits] at h
    simp only [Option.ite_none_right_eq_some, Option.some.injEq] at h
    exact
      { digits := hdigits
        notEmpty := hne
        atMostThree := by
          simp only [Bool.or_eq_true, decide_eq_true_eq, not_or] at hlength
          omega
        noLeadingZero := by
          intro hzero
          have hpos := List.length_pos_of_ne_nil hne
          simp only [hzero, beq_self_eq_true, Bool.true_and, decide_eq_true_eq] at hlead
          omega
        value := by
          rw [← h.2, Nat.toUInt8_eq, UInt8.toNat_ofNat', Nat.mod_eq_of_lt h.1] }
  · rintro ⟨hdigits, hne, hlength, hzero, hvalue⟩
    have hx := x.toNat_lt
    have hlead : ¬ (cs.head? == some '0' && decide (1 < cs.length)) = true := by
      simp only [Bool.and_eq_true, beq_iff_eq, decide_eq_true_eq, not_and]
      intro hhead
      rw [hzero hhead]
      decide
    rw [octet?, if_neg (by simpa [hne] using hlength), if_neg hlead,
      if_neg (by simpa using hdigits),
      ofDigits?_of_digits hne hdigits, hvalue]
    simp only
    rw [if_pos hx, Nat.toUInt8_eq, UInt8.ofNat_toNat]

theorem isOctet_octetText (x : UInt8) : IsOctet (octetText x) x where
  digits c hc := Nat.isDigit_of_mem_toDigits (by decide) (by decide) hc
  notEmpty := Nat.toDigits_ne_nil
  atMostThree := by
    have hx := x.toNat_lt
    exact (Nat.length_toDigits_le_iff (by decide) (by decide)).2 (by omega)
  noLeadingZero hzero := by
    rcases Nat.eq_zero_or_pos x.toNat with hx | hx
    · rw [octetText, hx]
      rfl
    · exact absurd hzero (head?_toDigits_ne hx)
  value := Nat.ofDigitChars_toDigits (by decide) (by decide)

/-- An octet has one decimal form. -/
theorem IsOctet.eq_octetText (h : IsOctet cs x) : cs = octetText x := by
  obtain ⟨hdigits, hne, -, hzero, hvalue⟩ := h
  cases cs with
  | nil => exact absurd rfl hne
  | cons c rest =>
    obtain ⟨hc, hrest⟩ := List.forall_mem_cons.1 hdigits
    have hrange := isDigit_iff.1 hc
    have hcode : '0'.toNat = 48 := rfl
    have hfirst : Nat.toDigits 10 (c.toNat - '0'.toNat) = [c] := by
      rw [Nat.toDigits_of_lt_base (by omega), digitChar_of_isDigit hc]
    rw [Nat.ofDigitChars_cons, Nat.mul_zero, Nat.zero_add] at hvalue
    by_cases hlead : c = '0'
    · obtain rfl : rest = [] := List.length_eq_zero_iff.1
        (Nat.succ.inj (hzero (by rw [hlead]; rfl)))
      rw [octetText, ← hvalue, Nat.ofDigitChars_nil, hfirst]
    · have hpos : 0 < c.toNat - '0'.toNat := by
        have hne : c.toNat ≠ '0'.toNat := fun heq => hlead (Char.toNat_inj.1 heq)
        omega
      rw [octetText, ← hvalue, ← toDigits_append_of_digits hrest hpos, hfirst,
        List.singleton_append]

/-! ## Addresses -/

/-- Four octets with points between them. -/
def IsDotted (cs : List Char) (x : Address) : Prop :=
  ∃ p q r s : List Char, cs = p ++ '.' :: (q ++ '.' :: (r ++ '.' :: s)) ∧
    IsOctet p x.a ∧ IsOctet q x.b ∧ IsOctet r x.c ∧ IsOctet s x.d

theorem IsOctet.not_point (h : IsOctet cs x) : ∀ c ∈ cs, (c == '.') = false := by
  intro c hc
  have hrange := isDigit_iff.1 (h.digits c hc)
  have hpoint : '.'.toNat = 46 := rfl
  refine beq_false_of_ne fun heq => ?_
  rw [heq] at hrange
  omega

theorem pieces_point_eq {p q r s : List Char} :
    Text.pieces (· == '.') cs = [p, q, r, s] → cs = p ++ '.' :: (q ++ '.' :: (r ++ '.' :: s)) := by
  intro h
  rw [Text.pieces_eq_splitOnP] at h
  have hjoined : ['.'].intercalate (cs.splitOn '.') = cs := List.intercalate_splitOn '.'
  rw [List.splitOn, h] at hjoined
  rw [← hjoined]
  simp [List.intercalate]

variable {a : Address}

/-- **What is read is what the grammar allows.** -/
theorem parseChars?_eq_some_iff : parseChars? cs = some a ↔ IsDotted cs a := by
  constructor
  · intro h
    rw [parseChars?] at h
    split at h
    next p q r s hpieces =>
      split at h
      next x y z w hp hq hr hs =>
        obtain rfl := Option.some.inj h
        exact ⟨p, q, r, s, pieces_point_eq hpieces, octet?_eq_some_iff.1 hp,
          octet?_eq_some_iff.1 hq, octet?_eq_some_iff.1 hr, octet?_eq_some_iff.1 hs⟩
      · cases h
    · cases h
  · rintro ⟨p, q, r, s, rfl, hp, hq, hr, hs⟩
    have hpoint : ('.' == '.') = true := rfl
    rw [parseChars?, Text.pieces_eq_splitOnP,
      List.splitOnP_append_cons_of_forall_mem hp.not_point _ hpoint,
      List.splitOnP_append_cons_of_forall_mem hq.not_point _ hpoint,
      List.splitOnP_append_cons_of_forall_mem hr.not_point _ hpoint,
      List.splitOnP_eq_singleton hs.not_point]
    simp only [octet?_eq_some_iff.2 hp, octet?_eq_some_iff.2 hq, octet?_eq_some_iff.2 hr,
      octet?_eq_some_iff.2 hs]

/-- **An address has one dotted form**, the one that is written. -/
theorem isDotted_iff : IsDotted cs a ↔ cs = a.renderChars := by
  constructor
  · rintro ⟨p, q, r, s, rfl, hp, hq, hr, hs⟩
    rw [hp.eq_octetText, hq.eq_octetText, hr.eq_octetText, hs.eq_octetText]
    rfl
  · rintro rfl
    exact ⟨_, _, _, _, rfl, isOctet_octetText a.a, isOctet_octetText a.b, isOctet_octetText a.c,
      isOctet_octetText a.d⟩

theorem IsDotted.digit_or_point (h : IsDotted cs a) : ∀ c ∈ cs, c.isDigit = true ∨ c = '.' := by
  obtain ⟨p, q, r, s, rfl, hp, hq, hr, hs⟩ := h
  intro c hc
  simp only [List.mem_append, List.mem_cons] at hc
  rcases hc with hc | rfl | hc | rfl | hc | rfl | hc
  · exact .inl (hp.digits c hc)
  · exact .inr rfl
  · exact .inl (hq.digits c hc)
  · exact .inr rfl
  · exact .inl (hr.digits c hc)
  · exact .inr rfl
  · exact .inl (hs.digits c hc)

end Network.Address

end Stagehand
