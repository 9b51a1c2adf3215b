import Mathlib.Data.List.Forall2
import Mathlib.Data.List.TakeWhile
import Mathlib.Data.Nat.Digits.Defs
import FlowDisasm.Command.Number
import FlowDisasm.Proofs.Text.Hex

/-!
# Numerals

An argument is read as a number if and only if it is a numeral of that number with any blanks around it. A numeral
is a row of digits behind an optional plus sign, with a mark in front of them if the digits are hexadecimal. Zeros in
front do not count, and the number has to fit in 32 bits. So the numbers that a listing shows can be given as
arguments again.
-/
namespace FlowDisasm

/-! ## Blanks -/

namespace Text

variable {text front body back : List Char}

/-- What is left of characters without blanks that stand between blanks. -/
theorem trim_append (hfront : ∀ c ∈ front, isBlank c = true) (hbody : ∀ c ∈ body, isBlank c = false)
    (hback : ∀ c ∈ back, isBlank c = true) : trim (front ++ body ++ back) = body := by
  have hkept (rest : List Char) (h : ∀ c ∈ rest, isBlank c = false) : rest.dropWhile isBlank = rest := by
    cases rest with
    | nil => rfl
    | cons c rest => rw [List.dropWhile_cons_of_neg (by simp [h c])]
  have hdropped : (front ++ body ++ back).dropWhile isBlank = (body ++ back).dropWhile isBlank := by
    rw [List.append_assoc, List.dropWhile_append_of_pos hfront]
  rw [trim, hdropped, trimEnd]
  by_cases hnil : body = []
  · have hblank : back.dropWhile isBlank = [] := List.dropWhile_eq_nil_iff.mpr hback
    simp [hnil, hblank]
  · have hbehind : (body ++ back).dropWhile isBlank = body ++ back := by
      rw [List.dropWhile_append, hkept body hbody, if_neg (by simpa using hnil)]
    rw [hbehind, List.reverse_append, List.dropWhile_append_of_pos (by simpa using hback),
      hkept _ (by simpa using hbody), List.reverse_reverse]

/-- Only blanks are taken away from around a text. -/
theorem exists_blanks_trim (text : List Char) : ∃ front back, text = front ++ trim text ++ back ∧
    (∀ c ∈ front, isBlank c = true) ∧ ∀ c ∈ back, isBlank c = true := by
  have hend (rest : List Char) : rest = trimEnd rest ++ (rest.reverse.takeWhile isBlank).reverse := by
    rw [trimEnd, ← List.reverse_append, List.takeWhile_append_dropWhile, List.reverse_reverse]
  refine ⟨text.takeWhile isBlank, ((text.dropWhile isBlank).reverse.takeWhile isBlank).reverse, ?_, ?_, ?_⟩
  · rw [List.append_assoc, trim, ← hend, List.takeWhile_append_dropWhile]
  · exact fun c hc => List.mem_takeWhile_imp hc
  · exact fun c hc => List.mem_takeWhile_imp (List.mem_reverse.mp hc)

end Text

namespace Command

/-! ## Digits -/

/-- A character is the digit of a value in a radix. Letters can be of either case. -/
def IsDigit (radix : Nat) (c : Char) (value : Nat) : Prop :=
  value < radix ∧ (c = Nat.digitChar value ∨ c = (Nat.digitChar value).toUpper)

/-- Digits of a radix, at least one, that make a number, the most significant first. -/
inductive Digits (radix : Nat) : List Char → Nat → Prop
  | of {digits : List Char} {values : List Nat} (hne : digits ≠ [])
      (h : List.Forall₂ (IsDigit radix) digits values) :
      Digits radix digits (Nat.ofDigits radix values.reverse)

/-- Digits that make a number, behind a plus sign or without one. -/
inductive Signed (radix : Nat) : List Char → Nat → Prop
  | bare {digits : List Char} {value : Nat} (h : Digits radix digits value) : Signed radix digits value
  | plus {digits : List Char} {value : Nat} (h : Digits radix digits value) : Signed radix ('+' :: digits) value

/-- How a number is written: in decimal, or in hexadecimal behind a mark. -/
inductive Numeral : List Char → Nat → Prop
  | decimal {text : List Char} {value : Nat} (h : Signed 10 text value) : Numeral text value
  | hexadecimal {mark : Char} {text : List Char} {value : Nat} (hmark : mark = 'x' ∨ mark = 'X')
      (h : Signed 16 text value) : Numeral ('0' :: mark :: text) value

/-- A text spells a number if it is a numeral of the number with nothing but blanks around it. -/
def Spells (text : String) (value : Nat) : Prop :=
  ∃ front numeral back, text.toList = front ++ numeral ++ back ∧
    (∀ c ∈ front, Text.isBlank c = true) ∧ (∀ c ∈ back, Text.isBlank c = true) ∧ Numeral numeral value

variable {radix value start found : Nat} {c : Char} {digits text : List Char}

theorem digit?_eq_some_iff (hradix : radix ≤ 16) : digit? radix c = some value ↔ IsDigit radix c value := by
  have hread : ∀ code : Fin 128, ∀ value ∈ digit? 16 (Char.ofNat code.val), value < 16 ∧
      (Char.ofNat code.val = Nat.digitChar value ∨ Char.ofNat code.val = (Nat.digitChar value).toUpper) := by
    decide
  have hwritten : ∀ value : Fin 16, digit? 16 (Nat.digitChar value.val) = some value.val ∧
      digit? 16 (Nat.digitChar value.val).toUpper = some value.val := by
    decide
  have hcode (h : digit? 16 c = some value) : c.toNat < 128 := by
    simp only [digit?, Bool.and_eq_true, decide_eq_true_eq] at h
    repeat' split at h
    all_goals first | omega | cases h
  have hsmaller : digit? radix c = (digit? 16 c).filter (· < radix) := by
    simp only [digit?, Option.filter_filter]
    congr 1
    funext value
    grind
  rw [hsmaller, Option.filter_eq_some_iff]
  constructor
  · rintro ⟨hfound, hless⟩
    refine ⟨of_decide_eq_true hless, ?_⟩
    have hdigit := hread ⟨c.toNat, hcode hfound⟩ value
    simp only [Char.ofNat_toNat] at hdigit
    exact (hdigit hfound).2
  · rintro ⟨hless, hdigit⟩
    refine ⟨?_, decide_eq_true hless⟩
    have hspelled := hwritten ⟨value, Nat.lt_of_lt_of_le hless hradix⟩
    rcases hdigit with rfl | rfl
    · exact hspelled.1
    · exact hspelled.2

theorem IsDigit.toUpper (hradix : radix ≤ 16) (h : IsDigit radix c value) : IsDigit radix c.toUpper value := by
  have hcapital : ∀ value : Fin 16, (Nat.digitChar value.val).toUpper.toUpper = (Nat.digitChar value.val).toUpper := by
    decide
  obtain ⟨hless, rfl | rfl⟩ := h
  · exact ⟨hless, .inr rfl⟩
  · exact ⟨hless, .inr (hcapital ⟨value, Nat.lt_of_lt_of_le hless hradix⟩)⟩

theorem IsDigit.not_blank (hradix : radix ≤ 16) (h : IsDigit radix c value) : Text.isBlank c = false := by
  have hall : ∀ value : Fin 16, Text.isBlank (Nat.digitChar value.val) = false ∧
      Text.isBlank (Nat.digitChar value.val).toUpper = false := by
    decide
  obtain ⟨hless, hdigit⟩ := h
  have hvalue := hall ⟨value, Nat.lt_of_lt_of_le hless hradix⟩
  rcases hdigit with rfl | rfl
  · exact hvalue.1
  · exact hvalue.2

/-! ## Rows of digits -/

/-- Behind a number that fits, digits are read if the number that they make with it fits too. -/
theorem readDigits_eq_ok_iff (hpos : 0 < radix) (hradix : radix ≤ 16) (hstart : start < UInt32.size) :
    readDigits radix start digits = .ok found ↔ found < UInt32.size ∧
      ∃ values, List.Forall₂ (IsDigit radix) digits values ∧
        found = Nat.ofDigits radix values.reverse + radix ^ values.length * start := by
  induction digits generalizing start with
  | nil =>
    simp only [readDigits, Except.ok.injEq, List.forall₂_nil_left_iff, exists_eq_left, List.reverse_nil,
      Nat.ofDigits_nil, List.length_nil, pow_zero, one_mul, zero_add]
    constructor
    · rintro rfl
      exact ⟨hstart, rfl⟩
    · rintro ⟨-, rfl⟩
      rfl
  | cons c digits ih =>
    have hmade (digit : Nat) (values : List Nat) :
        Nat.ofDigits radix values.reverse + radix ^ values.length * (start * radix + digit) =
          Nat.ofDigits radix (digit :: values).reverse + radix ^ (digit :: values).length * start := by
      rw [Nat.ofDigits_reverse_cons, List.length_cons, pow_succ]
      ring
    rw [readDigits]
    constructor
    · intro h
      cases hdigit : digit? radix c with
      | none => simp [hdigit] at h
      | some digit =>
        simp only [hdigit] at h
        by_cases hfits : start * radix + digit < UInt32.size
        · rw [if_pos hfits, ih hfits] at h
          obtain ⟨hfound, values, hvalues, hsum⟩ := h
          refine ⟨hfound, digit :: values, .cons ((digit?_eq_some_iff hradix).mp hdigit) hvalues, ?_⟩
          rw [hsum, hmade]
        · simp [hfits] at h
    · rintro ⟨hfound, values, hvalues, hsum⟩
      obtain ⟨digit, others, hdigit, hothers, rfl⟩ := List.forall₂_cons_left_iff.mp hvalues
      rw [← hmade] at hsum
      have hfits : start * radix + digit < UInt32.size := by
        have hscaled := Nat.le_mul_of_pos_left (start * radix + digit) (Nat.pow_pos (n := others.length) hpos)
        omega
      simp only [(digit?_eq_some_iff hradix).mpr hdigit, if_pos hfits]
      exact (ih hfits).mpr ⟨hfound, others, hothers, hsum⟩

theorem readDigits_zero_eq_ok_iff (hpos : 0 < radix) (hradix : radix ≤ 16) (hne : digits ≠ []) :
    readDigits radix 0 digits = .ok found ↔ found < UInt32.size ∧ Digits radix digits found := by
  rw [readDigits_eq_ok_iff hpos hradix (by decide)]
  refine and_congr_right fun _ => ?_
  constructor
  · rintro ⟨values, hvalues, rfl⟩
    simpa using Digits.of hne hvalues
  · rintro ⟨-, hvalues⟩
    exact ⟨_, hvalues, by simp⟩

namespace Digits

theorem ne_nil (h : Digits radix digits value) : digits ≠ [] := by
  cases h with
  | of hne _ => exact hne

theorem exists_value (h : Digits radix digits value) (hc : c ∈ digits) : ∃ digit, IsDigit radix c digit := by
  cases h with
  | of hne hdigits =>
    clear hne
    induction hdigits with
    | nil => cases hc
    | cons hdigit _ ih =>
      rcases List.mem_cons.mp hc with rfl | hc
      · exact ⟨_, hdigit⟩
      · exact ih hc

/-- One more digit at the end. -/
theorem concat {digit : Nat} (h : Digits radix digits value) (hdigit : IsDigit radix c digit) :
    Digits radix (digits ++ [c]) (digit + radix * value) := by
  cases h with
  | of _ hvalues =>
    have hmade := Digits.of (List.append_ne_nil_of_right_ne_nil digits (List.cons_ne_nil c []))
      (List.rel_append hvalues (.cons hdigit .nil))
    rwa [List.reverse_append, List.reverse_singleton, List.singleton_append, Nat.ofDigits_cons] at hmade

theorem toUpper (hradix : radix ≤ 16) (h : Digits radix digits value) :
    Digits radix (digits.map Char.toUpper) value := by
  cases h with
  | of hne hvalues =>
    refine .of (by simpa using hne) (List.forall₂_map_left_iff.mpr ?_)
    exact hvalues.imp fun _ _ hdigit => hdigit.toUpper hradix

/-- The digits of a number make the number. -/
theorem toDigits (htwo : 1 < radix) (hradix : radix ≤ 16) (value : Nat) :
    Digits radix (Nat.toDigits radix value) value := by
  induction value using Nat.strongRecOn with
  | ind value ih =>
    have hdigit : IsDigit radix (Nat.digitChar (value % radix)) (value % radix) :=
      ⟨Nat.mod_lt value (by omega), .inl rfl⟩
    by_cases hsmall : value < radix
    · rw [Nat.toDigits_of_lt_base hsmall]
      rw [Nat.mod_eq_of_lt hsmall] at hdigit
      simpa using Digits.of (List.cons_ne_nil _ _) (.cons hdigit .nil)
    · have hfront := ih (value / radix) (Nat.div_lt_self (by omega) htwo)
      rw [Nat.toDigits_of_base_le htwo (Nat.le_of_not_lt hsmall)]
      simpa only [Nat.mod_add_div] using hfront.concat hdigit

/-- Zeros in front change nothing. -/
theorem padded (hpos : 0 < radix) (h : Digits radix digits value) (zeros : Nat) :
    Digits radix (List.replicate zeros '0' ++ digits) value := by
  cases h with
  | @of values hne hvalues =>
    have hzeros : List.Forall₂ (IsDigit radix) (List.replicate zeros '0') (List.replicate zeros 0) := by
      induction zeros with
      | zero => exact .nil
      | succ zeros ih => exact .cons ⟨hpos, .inl rfl⟩ ih
    have hmade := Digits.of (List.append_ne_nil_of_right_ne_nil _ hne) (List.rel_append hzeros hvalues)
    rwa [List.reverse_append, List.reverse_replicate, Nat.ofDigits_append_replicate_zero] at hmade

theorem not_mem (hradix : radix ≤ 16) (hc : digit? radix c = none) (h : Digits radix digits value) :
    c ∉ digits := by
  intro hmem
  obtain ⟨digit, hdigit⟩ := h.exists_value hmem
  rw [(digit?_eq_some_iff hradix).mpr hdigit] at hc
  cases hc

end Digits

/-! ## Numerals -/

theorem Signed.exists_value (h : Signed radix text value) (hc : c ∈ text) :
    c = '+' ∨ ∃ digit, IsDigit radix c digit := by
  cases h with
  | bare hdigits => exact .inr (hdigits.exists_value hc)
  | plus hdigits => exact (List.mem_cons.mp hc).imp_right hdigits.exists_value

theorem readUnsigned_eq_ok_iff (hpos : 0 < radix) (hradix : radix ≤ 16) :
    readUnsigned radix text = .ok found ↔ found < UInt32.size ∧ Signed radix text found := by
  constructor
  · intro h
    unfold readUnsigned at h
    split at h
    case h_1 => cases h
    case h_2 => cases h
    case h_3 digits hne =>
      obtain ⟨hfits, hdigits⟩ := (readDigits_zero_eq_ok_iff hpos hradix hne).mp h
      exact ⟨hfits, .plus hdigits⟩
    case h_4 hne _ _ =>
      obtain ⟨hfits, hdigits⟩ := (readDigits_zero_eq_ok_iff hpos hradix hne).mp h
      exact ⟨hfits, .bare hdigits⟩
  · rintro ⟨hfits, hdigits | hdigits⟩
    · have hplus : '+' ∉ text := hdigits.not_mem hradix rfl
      unfold readUnsigned
      split
      case h_1 => exact absurd rfl hdigits.ne_nil
      case h_2 => exact absurd List.mem_cons_self hplus
      case h_3 => exact absurd List.mem_cons_self hplus
      case h_4 => exact (readDigits_zero_eq_ok_iff hpos hradix hdigits.ne_nil).mpr ⟨hfits, hdigits⟩
    · rename_i digits
      cases digits with
      | nil => exact absurd rfl hdigits.ne_nil
      | cons first digits => exact (readDigits_zero_eq_ok_iff hpos hradix hdigits.ne_nil).mpr ⟨hfits, hdigits⟩

/-- What stands behind a mark is hexadecimal: the mark itself is no decimal digit. -/
theorem numeral_marked_iff {mark : Char} (hmark : mark = 'x' ∨ mark = 'X') :
    Numeral ('0' :: mark :: text) value ↔ Signed 16 text value := by
  constructor
  · intro h
    generalize hmarked : '0' :: mark :: text = marked at h
    cases h with
    | decimal hdecimal =>
      have hmem : mark ∈ marked := by simp [← hmarked]
      rcases hdecimal.exists_value hmem with rfl | ⟨digit, hdigit⟩
      · simp at hmark
      · rw [← digit?_eq_some_iff (by decide)] at hdigit
        rcases hmark with rfl | rfl <;> cases hdigit
    | hexadecimal _ hhexadecimal => exact (List.cons.inj (List.cons.inj hmarked).2).2 ▸ hhexadecimal
  · exact .hexadecimal hmark

theorem readTrimmed_eq_ok_iff :
    (readTrimmed text).2 = .ok found ↔ found < UInt32.size ∧ Numeral text found := by
  unfold readTrimmed
  split
  case h_1 digits => rw [numeral_marked_iff (.inl rfl), readUnsigned_eq_ok_iff (by decide) (by decide)]
  case h_2 digits => rw [numeral_marked_iff (.inr rfl), readUnsigned_eq_ok_iff (by decide) (by decide)]
  case h_3 hsmall hcapital =>
    rw [readUnsigned_eq_ok_iff (by decide) (by decide)]
    refine and_congr_right fun _ => ⟨.decimal, ?_⟩
    rintro (hdecimal | ⟨rfl | rfl, -⟩)
    · exact hdecimal
    · exact absurd rfl (hsmall _)
    · exact absurd rfl (hcapital _)

/-- The characters that numerals are made of. -/
theorem Numeral.mem_cases (h : Numeral text value) (hc : c ∈ text) :
    c ∈ ['+', 'x', 'X'] ∨ ∃ digit, IsDigit 16 c digit := by
  have hsigned {radix : Nat} {text : List Char} (hradix : radix ≤ 16) (h : Signed radix text value)
      (hc : c ∈ text) : c ∈ ['+', 'x', 'X'] ∨ ∃ digit, IsDigit 16 c digit := by
    rcases h.exists_value hc with rfl | ⟨digit, hless, hdigit⟩
    · simp
    · exact .inr ⟨digit, Nat.lt_of_lt_of_le hless hradix, hdigit⟩
  cases h with
  | decimal hdecimal => exact hsigned (by decide) hdecimal hc
  | hexadecimal hmark hhexadecimal =>
    rcases List.mem_cons.mp hc with rfl | hc
    · exact .inr ⟨0, by decide, .inl rfl⟩
    rcases List.mem_cons.mp hc with rfl | hc
    · rcases hmark with rfl | rfl <;> simp
    · exact hsigned (by decide) hhexadecimal hc

theorem Numeral.not_blank (h : Numeral text value) (hc : c ∈ text) : Text.isBlank c = false := by
  rcases h.mem_cases hc with hmark | ⟨digit, hdigit⟩
  · simp only [List.mem_cons, List.not_mem_nil, or_false] at hmark
    rcases hmark with rfl | rfl | rfl <;> rfl
  · exact hdigit.not_blank (by decide)

theorem Numeral.not_mem (hmark : c ∉ ['+', 'x', 'X']) (hdigit : digit? 16 c = none) (h : Numeral text value) :
    c ∉ text := by
  intro hc
  obtain ⟨digit, hvalue⟩ := (h.mem_cases hc).resolve_left hmark
  rw [(digit?_eq_some_iff (by decide)).mpr hvalue] at hdigit
  cases hdigit

/-- A text spells what is left of it without the blanks around it. -/
theorem spells_iff {text : String} : Spells text value ↔ Numeral (Text.trim text.toList) value := by
  constructor
  · rintro ⟨front, numeral, back, htext, hfront, hback, hnumeral⟩
    rwa [htext, Text.trim_append hfront (fun _ => hnumeral.not_blank) hback]
  · intro h
    obtain ⟨front, back, htext, hfront, hback⟩ := Text.exists_blanks_trim text.toList
    exact ⟨front, _, back, htext, hfront, hback, h⟩

theorem readNumber_eq_ok_iff {text : String} {number : UInt32} :
    readNumber text = .ok number ↔ Spells text number.toNat := by
  have htrimmed : (readTrimmed (Text.trim text.toList)).2 = .ok number.toNat ↔ Spells text number.toNat := by
    rw [readTrimmed_eq_ok_iff, and_iff_right number.toNat_lt, spells_iff]
  rw [← htrimmed]
  unfold readNumber
  split
  case h_1 value hread =>
    have hvalue : value < UInt32.size := (readTrimmed_eq_ok_iff.mp (congrArg Prod.snd hread)).1
    rw [hread, Except.ok.injEq, Except.ok.injEq, ← UInt32.toNat_inj, UInt32.toNat_ofNat_of_lt' hvalue]
  case h_2 hread => simp [hread]

theorem exists_failure_iff {text : String} :
    (∃ failure, readNumber text = .error failure) ↔ ¬∃ number : UInt32, Spells text number.toNat := by
  simp only [← readNumber_eq_ok_iff]
  cases readNumber text <;> simp

/-! ## Numbers read back -/

theorem readNumber_of_numeral {text : String} {number : UInt32} (h : Numeral text.toList number.toNat) :
    readNumber text = .ok number :=
  readNumber_eq_ok_iff.mpr ⟨[], text.toList, [], by simp, by simp, by simp, h⟩

theorem toList_decimal (value : Nat) : (toString value).toList = Nat.toDigits 10 value := by
  rw [Nat.toString_eq_repr, Nat.repr, String.toList_ofList]

/-- A number in decimal is read as the number, with any zeros in front of it. -/
theorem readNumber_decimal (number : UInt32) :
    readNumber (toString number.toNat) = .ok number ∧ ∀ width,
      readNumber (String.ofList ((Nat.toDigits 10 number.toNat).leftpad width '0')) = .ok number := by
  have hdigits : Digits 10 (Nat.toDigits 10 number.toNat) number.toNat := .toDigits (by decide) (by decide) _
  refine ⟨readNumber_of_numeral ?_, fun width => readNumber_of_numeral ?_⟩
  · rw [toList_decimal]
    exact .decimal (.bare hdigits)
  · rw [String.toList_ofList]
    exact .decimal (.bare (hdigits.padded (by decide) _))

theorem digits_hexSmall (value : Nat) : Digits 16 (Text.hexSmall value).toList value := by
  rw [Text.hexSmall, String.toList_ofList]
  exact .toDigits (by decide) (by decide) value

theorem digits_hexPadded (width value : Nat) : Digits 16 (Text.hexPadded width value).toList value := by
  have hdigits : Digits 16 (Nat.toDigits 16 value) value := .toDigits (by decide) (by decide) value
  rw [Text.hexPadded, String.toList_ofList]
  exact (hdigits.toUpper (by decide)).padded (by decide) _

/-- A number in hexadecimal is read as the number, behind either mark. -/
theorem readNumber_marked {digits : String} {number : UInt32} (h : Digits 16 digits.toList number.toNat) :
    readNumber ("0x" ++ digits) = .ok number ∧ readNumber ("0X" ++ digits) = .ok number := by
  constructor
  · apply readNumber_of_numeral
    simpa using Numeral.hexadecimal (.inl rfl) (.bare h)
  · apply readNumber_of_numeral
    simpa using Numeral.hexadecimal (.inr rfl) (.bare h)

/-- An argument is read as a number if and only if it spells the number, which is to be a numeral of it between
blanks; all other arguments are refused. Numbers in decimal and in hexadecimal are read back. -/
theorem readNumber_exact (text : String) :
    (∀ number, readNumber text = .ok number ↔ Spells text number.toNat) ∧
    ((∃ failure, readNumber text = .error failure) ↔ ¬∃ number : UInt32, Spells text number.toNat) ∧
    (∀ value, Spells text value ↔ Numeral (Text.trim text.toList) value) ∧
    (∀ number : UInt32,
      (readNumber (toString number.toNat) = .ok number ∧ ∀ width,
        readNumber (String.ofList ((Nat.toDigits 10 number.toNat).leftpad width '0')) = .ok number) ∧
      (readNumber ("0x" ++ Text.hexSmall number.toNat) = .ok number ∧
        readNumber ("0X" ++ Text.hexSmall number.toNat) = .ok number) ∧
      ∀ width, readNumber ("0x" ++ Text.hexPadded width number.toNat) = .ok number ∧
        readNumber ("0X" ++ Text.hexPadded width number.toNat) = .ok number) := by
  refine ⟨fun _ => readNumber_eq_ok_iff, exists_failure_iff, fun _ => spells_iff, fun number => ⟨?_, ?_, ?_⟩⟩
  · exact readNumber_decimal number
  · exact readNumber_marked (digits_hexSmall _)
  · exact fun width => readNumber_marked (digits_hexPadded width _)

example : readNumber "\t0X+00fF " = .ok 255 := by decide +kernel

/-! ## Numbers of listings -/

theorem numeral_hexLiteral (value : Nat) : Numeral (Text.hexLiteral value).toList value := by
  rw [Text.toList_hexLiteral]
  refine .hexadecimal (.inl rfl) (.bare ?_)
  simpa [Text.hexPadded, List.leftpad] using digits_hexPadded 0 value

/-- A hexadecimal literal is read as its number. -/
theorem readNumber_hexLiteral (value : UInt32) : readNumber (Text.hexLiteral value.toNat) = .ok value :=
  readNumber_of_numeral (numeral_hexLiteral value.toNat)

theorem toList_toString {digit : Nat} (h : digit < 10) :
    (toString digit).toList = [Nat.digitChar digit] := by
  rw [toList_decimal, Nat.toDigits_of_lt_base h]

/-- A decimal digit is read as its number. -/
theorem readNumber_digit {digit : Nat} (h : digit < 10) :
    readNumber (toString digit) = .ok (UInt32.ofNat digit) := by
  have hvalue : (UInt32.ofNat digit).toNat = digit :=
    UInt32.toNat_ofNat_of_lt' (Nat.lt_trans h (by decide))
  simpa only [hvalue] using (readNumber_decimal (UInt32.ofNat digit)).1

end Command

end FlowDisasm
