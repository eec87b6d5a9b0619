import Mathlib.Tactic.IntervalCases
import Mathlib.Data.List.Basic
import CanvasTransform.Json.Parser
import CanvasTransform.Json.Printer

set_option autoImplicit false

/-! # Numbers and strings are scanned as what they are

The writer and the scanner are followed piece by piece: the digits before the point, those after it
and the exponent of a number, and the characters of a string, each of which is escaped on its own.

A string ends with its quote, but a number goes on as long as it can. So a number is scanned as what
it is only if what follows does not begin with a digit, a point or the letter of an exponent (`Ends`),
and if it is written by the rules in the first place (`Numeral.Proper`). -/

namespace CanvasTransform

namespace Numeral

/-! ## Digits -/

theorem lt_ten_of_mem_digitsOf {n d : Nat} (h : d ∈ digitsOf n) : d < 10 := by
  obtain ⟨c, hc, rfl⟩ := List.mem_map.1 h
  have hdigit := Nat.isDigit_of_mem_toDigits (by decide) (by decide) hc
  simp only [Char.isDigit, Bool.and_eq_true, decide_eq_true_eq] at hdigit
  have : c.toNat ≤ 57 := hdigit.2
  omega

theorem ofDigits_digitsOf (n : Nat) : ofDigits (digitsOf n) = n := by
  rw [ofDigits, digitsOf, List.foldl_map]
  exact Nat.ofDigitChars_eq_foldl.symm.trans Nat.ofDigitChars_ten_toDigits

/-- The digits of a number do not begin with zero, unless it is zero. -/
theorem digitsOf_eq_cons {n : Nat} (h : n ≠ 0) : ∃ d rest, digitsOf n = d :: rest ∧ d ≠ 0 := by
  induction n using Nat.strongRecOn with
  | ind n ih =>
      by_cases hlt : n < 10
      · refine ⟨n, [], ?_, h⟩
        rw [digitsOf, Nat.toDigits_of_lt_base hlt]
        interval_cases n <;> rfl
      · obtain ⟨d, rest, hrest, hd⟩ := ih (n / 10) (by omega) (by omega)
        refine ⟨d, rest ++ digitsOf (n % 10), ?_, hd⟩
        rw [digitsOf, Nat.toDigits_of_base_le (by decide) (by omega), List.map_append, ← digitsOf,
          hrest, digitsOf, Nat.toDigits_of_lt_base (Nat.mod_lt _ (by decide))]
        rfl

/-- The number is written by the rules: there are digits before the point, and a zero does not stand
    before others. -/
structure Proper (n : Numeral) : Prop where
  digit : ∀ d ∈ n.whole ++ n.fraction, d < 10
  whole : n.whole = [0] ∨ ∃ d rest, n.whole = d :: rest ∧ d ≠ 0

theorem proper_ofInt (n : Int) : (ofInt n).Proper where
  digit d hd := by
    rw [ofInt, List.append_nil] at hd
    exact lt_ten_of_mem_digitsOf hd
  whole := by
    by_cases h : n.natAbs = 0
    · exact Or.inl (by rw [ofInt, h]; rfl)
    · exact Or.inr (digitsOf_eq_cons h)

end Numeral

namespace Json

/-! ## Scanning digits -/

/-- The characters of digits. -/
def digitChars (ds : List Nat) : List Char := ds.map fun d => Char.ofNat (48 + d)

theorem toList_digitsText (ds : List Nat) : (Numeral.digitsText ds).toList = digitChars ds :=
  String.toList_ofList

theorem isDigit_ofNat {d : Nat} (h : d < 10) :
    (Char.ofNat (48 + d)).isDigit = true ∧ (Char.ofNat (48 + d)).toNat - 48 = d := by
  interval_cases d <;> decide

/-- The text does not begin with a digit. -/
def NoDigit (cs : List Char) : Prop := ∀ c ∈ cs.head?, c.isDigit = false

theorem scanDigits_digitChars {ds : List Nat} {rest : List Char} (hds : ∀ d ∈ ds, d < 10)
    (hrest : NoDigit rest) : scanDigits (digitChars ds ++ rest) = (ds, rest) := by
  have hall : ∀ c ∈ digitChars ds, c.isDigit = true := by
    intro c hc
    obtain ⟨d, hd, rfl⟩ := List.mem_map.1 hc
    exact (isDigit_ofNat (hds d hd)).1
  have hnone : rest.takeWhile Char.isDigit = [] ∧ rest.dropWhile Char.isDigit = rest := by
    cases rest with
    | nil => exact ⟨rfl, rfl⟩
    | cons c rest =>
        have hc : c.isDigit = false := hrest c rfl
        simp [hc]
  rw [scanDigits, List.takeWhile_append_of_pos hall, List.dropWhile_append_of_pos hall, hnone.1,
    hnone.2, List.append_nil, digitChars, List.map_map]
  congr 1
  conv_rhs => rw [← List.map_id ds]
  exact List.map_congr_left fun d hd => (isDigit_ofNat (hds d hd)).2

/-! ## Scanning numbers -/

/-- No number goes on with the text. -/
def Ends (cs : List Char) : Prop :=
  ∀ c ∈ cs.head?, c.isDigit = false ∧ c ≠ '.' ∧ c ≠ 'e' ∧ c ≠ 'E'

theorem Ends.noDigit {cs : List Char} (h : Ends cs) : NoDigit cs := fun c hc => (h c hc).1

theorem scanWhole_digitChars {ds : List Nat} {rest : List Char} (hds : ∀ d ∈ ds, d < 10)
    (hwhole : ds = [0] ∨ ∃ d more, ds = d :: more ∧ d ≠ 0) (hrest : NoDigit rest) :
    scanWhole (digitChars ds ++ rest) = some (ds, rest) := by
  rcases hwhole with rfl | ⟨d, more, rfl, hd⟩
  · rfl
  · have hscan := scanDigits_digitChars hds hrest
    have hne : Char.ofNat (48 + d) ≠ '0' := by
      have hlt : d < 10 := hds d List.mem_cons_self
      interval_cases d
      · exact absurd rfl hd
      all_goals decide
    rw [digitChars, List.map_cons, List.cons_append] at hscan ⊢
    unfold scanWhole
    split
    · next heq => exact absurd (List.cons.inj heq).1 hne
    · rw [hscan]

/-- The characters after the point, with the point. -/
def fractionChars (ds : List Nat) : List Char := if ds.isEmpty then [] else '.' :: digitChars ds

theorem scanFraction_fractionChars {ds : List Nat} {rest : List Char} (hds : ∀ d ∈ ds, d < 10)
    (hrest : NoDigit rest) (hpoint : ∀ c ∈ rest.head?, c ≠ '.') :
    scanFraction (fractionChars ds ++ rest) = some (ds, rest) := by
  cases ds with
  | nil =>
      rw [fractionChars, List.isEmpty_nil, if_pos rfl, List.nil_append]
      unfold scanFraction
      split
      · exact absurd rfl (hpoint '.' rfl)
      · rfl
  | cons d ds =>
      rw [fractionChars, List.isEmpty_cons, if_neg Bool.false_ne_true, List.cons_append,
        scanFraction, scanDigits_digitChars hds hrest]

/-- The characters of an exponent, with its letter and sign. -/
def exponentChars : Option Int → List Char
  | some e => 'e' :: (if e < 0 then '-' else '+') :: digitChars (Numeral.digitsOf e.natAbs)
  | none => []

theorem scanExponent_exponentChars (exponent : Option Int) {rest : List Char} (hrest : Ends rest) :
    scanExponent (exponentChars exponent ++ rest) = some (exponent, rest) := by
  cases exponent with
  | none =>
      rw [exponentChars, List.nil_append]
      cases rest with
      | nil => rfl
      | cons c rest =>
          obtain ⟨-, -, he, hE⟩ := hrest c rfl
          exact if_neg (by simp [he, hE])
  | some e =>
      have hscan : scanExponentDigits (if e < 0 then -1 else 1)
          (digitChars (Numeral.digitsOf e.natAbs) ++ rest) = some (some e, rest) := by
        have hdigits := scanDigits_digitChars
          (fun d hd => Numeral.lt_ten_of_mem_digitsOf (n := e.natAbs) hd) hrest.noDigit
        have hsign : (if e < 0 then -1 else 1) * (e.natAbs : Int) = e := by split <;> omega
        have hne : Numeral.digitsOf e.natAbs ≠ [] := by
          rw [Numeral.digitsOf, Ne, List.map_eq_nil_iff]
          exact Nat.toDigits_ne_nil
        rw [scanExponentDigits, hdigits]
        split
        · next heq => exact absurd (Prod.mk.inj heq).1 hne
        · next heq =>
            obtain ⟨rfl, rfl⟩ := Prod.mk.inj heq
            rw [Numeral.ofDigits_digitsOf, hsign]
      rw [exponentChars, List.cons_append, List.cons_append]
      by_cases hneg : e < 0
      · rw [if_pos hneg] at hscan ⊢
        simpa only [scanExponent, if_true, true_or] using hscan
      · rw [if_neg hneg] at hscan ⊢
        simpa only [scanExponent, if_true, true_or] using hscan

theorem toList_toText (n : Numeral) : n.toText.toList =
    (if n.negative then ['-'] else []) ++ (digitChars n.whole ++
      (fractionChars n.fraction ++ exponentChars n.exponent)) := by
  obtain ⟨negative, whole, fraction, exponent⟩ := n
  simp only [Numeral.toText, String.toList_append, toList_digitsText, List.append_assoc]
  congr 1
  · cases negative <;> simp
  · congr 1
    congr 1
    · cases fraction with
      | nil => rfl
      | cons d ds =>
          simp only [fractionChars, List.isEmpty_cons, Bool.false_eq_true, if_false,
            String.toList_append, toList_digitsText]
          rfl
    · cases exponent with
      | none => rfl
      | some e =>
          simp only [String.toList_append, toList_digitsText, exponentChars]
          split <;> rfl

/-- What comes after the digits before the point is no further digit. -/
theorem noDigit_fraction_exponent (ds : List Nat) (exponent : Option Int) {rest : List Char}
    (hrest : Ends rest) :
    NoDigit (fractionChars ds ++ (exponentChars exponent ++ rest)) ∧
      NoDigit (exponentChars exponent ++ rest) ∧
      ∀ c ∈ (exponentChars exponent ++ rest).head?, c ≠ '.' := by
  have hexponent : NoDigit (exponentChars exponent ++ rest) ∧
      ∀ c ∈ (exponentChars exponent ++ rest).head?, c ≠ '.' := by
    cases exponent with
    | none => exact ⟨hrest.noDigit, fun c hc => (hrest c hc).2.1⟩
    | some e => exact ⟨fun c hc => by cases hc; rfl, fun c hc => by cases hc; decide⟩
  refine ⟨?_, hexponent⟩
  cases ds with
  | nil => exact hexponent.1
  | cons d ds => exact fun c hc => by cases hc; rfl

/-- There is a digit before the point. -/
theorem digitChars_whole_eq_cons {n : Numeral} (h : n.Proper) :
    ∃ c cs, digitChars n.whole = c :: cs ∧ c.isDigit = true := by
  obtain ⟨d, more, hwhole⟩ : ∃ d more, n.whole = d :: more := by
    rcases h.whole with h | ⟨d, more, h, -⟩
    · exact ⟨0, [], h⟩
    · exact ⟨d, more, h⟩
  have hd : d < 10 := h.digit d (by rw [hwhole]; exact List.mem_cons_self)
  exact ⟨_, _, by rw [hwhole]; rfl, (isDigit_ofNat hd).1⟩

/-- The first character of a number is a minus or a digit. -/
theorem toText_eq_cons {n : Numeral} (h : n.Proper) :
    ∃ c cs, n.toText.toList = c :: cs ∧ (c = '-' ∨ c.isDigit = true) := by
  obtain ⟨c, cs, hcons, hc⟩ := digitChars_whole_eq_cons h
  rw [toList_toText, hcons]
  cases n.negative with
  | true => exact ⟨_, _, rfl, Or.inl rfl⟩
  | false => exact ⟨_, _, rfl, Or.inr hc⟩

/-- **A number that is written is scanned as what it is**, when no number goes on with what
    follows. -/
theorem scanNumeral_toText {n : Numeral} (h : n.Proper) {rest : List Char} (hrest : Ends rest) :
    scanNumeral (n.toText.toList ++ rest) = some (n, rest) := by
  obtain ⟨hfraction, hexponent, hpoint⟩ := noDigit_fraction_exponent n.fraction n.exponent hrest
  have hwhole := scanWhole_digitChars (fun d hd => h.digit d (List.mem_append_left _ hd)) h.whole
    hfraction
  have hscan₁ := scanFraction_fractionChars (fun d hd => h.digit d (List.mem_append_right _ hd))
    hexponent hpoint
  have hscan₂ := scanExponent_exponentChars n.exponent hrest
  rw [toList_toText, List.append_assoc, List.append_assoc, List.append_assoc]
  obtain ⟨negative, whole, fraction, exponent⟩ := n
  cases negative with
  | true =>
      simp only [scanNumeral, if_true, List.cons_append, List.nil_append, hwhole, hscan₁, hscan₂,
        Option.bind_eq_bind, Option.bind_some, Option.pure_def]
  | false =>
      obtain ⟨c, cs, hcons, hc⟩ := digitChars_whole_eq_cons h
      simp only [Bool.false_eq_true, if_false, List.nil_append]
      unfold scanNumeral
      split
      next heq =>
        split at heq
        · next hminus =>
            -- a text that begins with a digit does not begin with a minus
            rw [hcons, List.cons_append] at hminus
            rw [(List.cons.inj hminus).1] at hc
            exact absurd hc (by decide)
        · obtain ⟨rfl, rfl⟩ := Prod.mk.inj heq
          simp only [hwhole, hscan₁, hscan₂, Option.bind_eq_bind, Option.bind_some,
            Option.pure_def]

/-! ## Scanning strings -/

theorem hexValue?_hexDigit {n : Nat} (h : n < 16) : hexValue? (hexDigit n) = some n := by
  interval_cases n <;> decide

/-- Four digits spell a control character. -/
theorem unitPiece?_hexDigit {n : Nat} (h : n < 0x20) :
    unitPiece? '0' '0' (hexDigit (n / 16)) (hexDigit (n % 16)) = some (.char (Char.ofNat n)) := by
  have hvalue : ((0 * 16 + 0) * 256 + n / 16 * 16 + n % 16) = n := by omega
  have hzero : hexValue? '0' = some 0 := by decide
  rw [unitPiece?, hzero, hexValue?_hexDigit (show n / 16 < 16 by omega),
    hexValue?_hexDigit (Nat.mod_lt n (by decide))]
  simp only [Option.bind_eq_bind, Option.bind_some, Option.pure_def, hvalue]
  rw [if_neg (by omega)]

/-- A character that is escaped if it has to be is scanned as what it is. -/
theorem scanString_escape (before : List Piece) (c : Char) (rest : List Char) :
    scanString before (escape c ++ rest) = scanString (.char c :: before) rest := by
  unfold escape
  split_ifs with hquote hslash hline hreturn htab hback hfeed hcontrol
  · subst hquote
    rfl
  · subst hslash
    rfl
  · subst hline
    rfl
  · subst hreturn
    rfl
  · subst htab
    rfl
  · subst hback
    rfl
  · subst hfeed
    rfl
  · have hunit := unitPiece?_hexDigit hcontrol
    rw [Char.ofNat_toNat] at hunit
    simp only [List.cons_append, List.nil_append, scanString, hunit]
  · rw [List.cons_append, List.nil_append, scanString, if_neg hcontrol]
    · exact hquote
    · exact fun _ _ _ _ _ h => absurd h hslash
    · exact fun _ _ h => absurd h hslash

theorem scanString_flatMap_escape (before : List Piece) (cs rest : List Char) :
    scanString before (cs.flatMap escape ++ '"' :: rest) =
      some ((cs.map Piece.char).reverse ++ before, rest) := by
  induction cs generalizing before with
  | nil => rfl
  | cons c cs ih =>
      rw [List.flatMap_cons, List.append_assoc, scanString_escape, ih, List.map_cons,
        List.reverse_cons, List.append_assoc]
      rfl

theorem joinPieces_map_char (cs after : List Char) :
    joinPieces (cs.map Piece.char) after = some (cs.reverse ++ after) := by
  induction cs generalizing after with
  | nil => rfl
  | cons c cs ih =>
      rw [List.map_cons, joinPieces, ih, List.reverse_cons, List.append_assoc]
      rfl

/-! ## Scanning tokens -/

theorem scanToken_quoted (s : String) (rest : List Char) :
    scanToken ((quoted s).toList ++ rest) = some (.atom (.text s), rest) := by
  have hquoted : (quoted s).toList ++ rest = '"' :: (s.toList.flatMap escape ++ '"' :: rest) := by
    rw [quoted, String.toList_append, String.toList_append, String.toList_ofList]
    simp
  rw [hquoted, scanToken, scanString_flatMap_escape]
  simp only [Option.bind_eq_bind, Option.bind_some, Option.pure_def, List.append_nil,
    ← List.map_reverse, joinPieces_map_char, List.reverse_reverse, Option.map_some,
    String.ofList_toList, Json.text]

theorem scanToken_toText {n : Numeral} (h : n.Proper) {rest : List Char} (hrest : Ends rest) :
    scanToken (n.toText.toList ++ rest) = some (.atom (.number n), rest) := by
  have hscan := scanNumeral_toText h hrest
  obtain ⟨c, cs, hcons, hc⟩ := toText_eq_cons h
  rw [hcons, List.cons_append] at hscan ⊢
  rw [scanToken, hscan]
  · rfl
  -- no other token begins with a minus or a digit
  all_goals
    intro _ heq
    rw [(List.cons.inj heq).1] at hc
    exact absurd hc (by decide)

end Json

end CanvasTransform
