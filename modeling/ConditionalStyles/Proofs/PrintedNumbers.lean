import ConditionalStyles.Json.Literal
import ConditionalStyles.Proofs.ShortestDecimals

/-!
# Reading printed numbers

Every layout writes a finite number as a literal, which is read back part by
part, if nothing behind it can be taken for a further part.  The literal spells
the shortest decimal of the number, wherever the layout puts the point.
-/

namespace ConditionalStyles

namespace Json

/-! ## Parts of a literal -/

def continuesNumber (character : Char) : Bool :=
  character.isDigit || character == '.' || character == 'e' || character == 'E'

/-- No number goes on with this text. -/
def EndsNumber (rest : List Char) : Prop :=
  ∀ first, rest.head? = some first → continuesNumber first = false

structure IsRun (digits : List Char) : Prop where
  nonempty : digits ≠ []
  digit : ∀ character ∈ digits, character.isDigit = true

theorem IsRun.chars (number : Nat) : IsRun (Numeral.chars 10 number) where
  nonempty := Numeral.chars_ne_nil 10 number
  digit _ := Numeral.isDigit_of_mem_chars

theorem IsRun.append {digits zeros : List Char} (run : IsRun digits)
    (digit : ∀ character ∈ zeros, character.isDigit = true) : IsRun (digits ++ zeros) where
  nonempty := List.append_ne_nil_of_left_ne_nil run.nonempty zeros
  digit character mem := (List.mem_append.1 mem).elim (run.digit character) (digit character)

theorem isDigit_of_mem_replicate {count : Nat} {character : Char}
    (mem : character ∈ List.replicate count '0') : character.isDigit = true := by
  rw [List.eq_of_mem_replicate mem]
  rfl

theorem digitRun?_append {digits rest : List Char} (run : IsRun digits)
    (stop : ∀ first, rest.head? = some first → first.isDigit = false) :
    digitRun? (digits ++ rest) = some (digits, rest) := by
  have taken : rest.takeWhile Char.isDigit = [] ∧ rest.dropWhile Char.isDigit = rest := by
    cases rest with
    | nil => exact ⟨rfl, rfl⟩
    | cons first after =>
        have noDigit := stop first rfl
        simp [noDigit]
  rw [digitRun?, List.takeWhile_append_of_pos run.digit, List.dropWhile_append_of_pos run.digit,
    taken.1, taken.2, List.append_nil]
  split
  · exact absurd rfl run.nonempty
  · rfl

namespace Literal

def fractionChars : Option (List Char) → List Char
  | none => []
  | some digits => '.' :: digits

def exponentChars : Option (Bool × List Char) → List Char
  | none => []
  | some (negative, digits) => 'e' :: (if negative then '-' else '+') :: digits

def chars (literal : Literal) : List Char :=
  (if literal.negative then ['-'] else []) ++ literal.whole ++
    fractionChars literal.fraction ++ exponentChars literal.exponent

/-- The parts are made of digits, and a leading zero stands alone. -/
structure Proper (literal : Literal) : Prop where
  whole : IsRun literal.whole
  leading : literal.whole = ['0'] ∨ literal.whole.head? ≠ some '0'
  fraction : ∀ digits, literal.fraction = some digits → IsRun digits
  exponent : ∀ sign digits, literal.exponent = some (sign, digits) → IsRun digits

/-- The decimal that the literal spells, with all of its digits. -/
def spelled (literal : Literal) : Decimal where
  coefficient := Numeral.ofChars 10 (literal.whole ++ literal.fraction.getD [])
  exponent := literal.power - (literal.fraction.getD []).length

variable {rest : List Char}

theorem wholePart?_append {whole : List Char} (run : IsRun whole)
    (leading : whole = ['0'] ∨ whole.head? ≠ some '0')
    (stop : ∀ first, rest.head? = some first → first.isDigit = false) :
    wholePart? (whole ++ rest) = some (whole, rest) := by
  rcases leading with rfl | leading
  · rfl
  · rw [← digitRun?_append run stop]
    cases whole with
    | nil => exact absurd rfl run.nonempty
    | cons first after =>
        rw [wholePart?]
        rintro after' same
        simp_all

theorem fractionPart?_append {fraction : Option (List Char)}
    (run : ∀ digits, fraction = some digits → IsRun digits)
    (stop : ∀ first, rest.head? = some first → first.isDigit = false ∧ first ≠ '.') :
    fractionPart? (fractionChars fraction ++ rest) = some (fraction, rest) := by
  cases fraction with
  | none =>
      rw [fractionChars, List.nil_append, fractionPart?]
      rintro after rfl
      exact (stop '.' rfl).2 rfl
  | some digits =>
      have read := digitRun?_append (run digits rfl) fun first head => (stop first head).1
      rw [fractionChars, List.cons_append, fractionPart?, read]
      rfl

theorem exponentPart?_append {exponent : Option (Bool × List Char)}
    (run : ∀ sign digits, exponent = some (sign, digits) → IsRun digits)
    (ends : EndsNumber rest) :
    exponentPart? (exponentChars exponent ++ rest) = some (exponent, rest) := by
  cases exponent with
  | none =>
      rw [exponentChars, List.nil_append]
      cases rest with
      | nil => rfl
      | cons first after =>
          have stop := ends first rfl
          simp only [continuesNumber, Bool.or_eq_false_iff, beq_eq_false_iff_ne] at stop
          exact if_neg fun mark => mark.elim stop.1.2 stop.2
  | some parts =>
      obtain ⟨negative, digits⟩ := parts
      have read := digitRun?_append (run negative digits rfl) fun first head => by
        have stop := ends first head
        simp only [continuesNumber, Bool.or_eq_false_iff] at stop
        exact stop.1.1.1
      cases negative with
      | true =>
          show Option.map _ (digitRun? (digits ++ rest)) = _
          rw [read]
          rfl
      | false =>
          show Option.map _ (digitRun? (digits ++ rest)) = _
          rw [read]
          rfl

/-- Behind the digits of one part stands the mark of the next one or the end. -/
theorem head?_exponentChars (exponent : Option (Bool × List Char)) (ends : EndsNumber rest)
    (first : Char) (head : (exponentChars exponent ++ rest).head? = some first) :
    first.isDigit = false ∧ first ≠ '.' := by
  cases exponent with
  | none =>
      have stop := ends first head
      simp only [continuesNumber, Bool.or_eq_false_iff, beq_eq_false_iff_ne] at stop
      exact ⟨stop.1.1.1, stop.1.1.2⟩
  | some parts =>
      cases Option.some.inj head
      exact ⟨rfl, by decide⟩

theorem head?_fractionChars (fraction : Option (List Char))
    (stop : ∀ first, rest.head? = some first → first.isDigit = false)
    (first : Char) (head : (fractionChars fraction ++ rest).head? = some first) :
    first.isDigit = false := by
  cases fraction with
  | none => exact stop first head
  | some digits =>
      cases Option.some.inj head
      rfl

/-- A literal is read back from its text. -/
theorem literal?_chars {literal : Literal} (proper : literal.Proper) (ends : EndsNumber rest) :
    literal? (literal.chars ++ rest) = some (literal, rest) := by
  obtain ⟨negative, whole, fraction, exponent⟩ := literal
  have afterFraction := head?_exponentChars exponent ends
  have afterWhole := head?_fractionChars fraction fun first head => (afterFraction first head).1
  have readWhole := wholePart?_append proper.whole proper.leading afterWhole
  have readFraction := fractionPart?_append proper.fraction afterFraction
  have readExponent := exponentPart?_append proper.exponent ends
  cases negative with
  | true => simp [chars, literal?, readWhole, readFraction, readExponent]
  | false =>
      obtain ⟨first, after, rfl⟩ := List.exists_cons_of_ne_nil proper.whole.nonempty
      have digit := proper.whole.digit first List.mem_cons_self
      have unsigned : first ≠ '-' := by
        rintro rfl
        cases digit
      rw [List.cons_append] at readWhole
      simp [chars, literal?, unsigned, readWhole, readFraction, readExponent]

/-! ## Literals of decimals -/

/-- There is no power of ten, and no fraction that ends in zero. -/
structure IsPlain (literal : Literal) : Prop where
  positional : literal.exponent = none
  ending : ∀ digits, literal.fraction = some digits → digits.getLast? ≠ some '0'

/-- The literal is a way to write a text, and spells a decimal up to zeros at the end. -/
structure Writes (literal : Literal) (text : List Char) (decimal : Decimal) : Prop where
  proper : literal.Proper
  chars : literal.chars = text
  unsigned : literal.negative = false
  value : literal.spelled.value = decimal.value

/-- The digits of a coefficient, the first of them not zero. -/
structure Significand (digits : List Char) (coefficient : Nat) : Prop where
  run : IsRun digits
  leading : digits.head? ≠ some '0'
  value : Numeral.ofChars 10 digits = coefficient

theorem significand_chars {coefficient : Nat} (nonzero : coefficient ≠ 0) :
    Significand (Numeral.chars 10 coefficient) coefficient where
  run := IsRun.chars coefficient
  leading := by
    obtain ⟨first, after, same, notZero⟩ :=
      Numeral.chars_eq_cons (show 2 ≤ 10 by decide) (by decide) nonzero
    rw [same]
    exact fun head => notZero (Option.some.inj head)
  value := Numeral.ofChars_chars (by decide) (by decide) coefficient

theorem isRun_zero : IsRun ['0'] where
  nonempty := List.cons_ne_nil '0' []
  digit _ mem := List.mem_singleton.1 mem ▸ rfl

theorem isRun_of_some {digits : List Char} (run : IsRun digits) (digits' : List Char)
    (same : some digits = some digits') : IsRun digits' :=
  Option.some.inj same ▸ run

section Positional

variable {digits : List Char} {coefficient : Nat} {exponent : Int}

theorem writes_of_parts {whole : List Char} {fraction : Option (List Char)} (zeros : Nat)
    (run : IsRun whole) (leading : whole = ['0'] ∨ whole.head? ≠ some '0')
    (runFraction : ∀ digits, fraction = some digits → IsRun digits)
    (value : Numeral.ofChars 10 (whole ++ fraction.getD []) = coefficient * 10 ^ zeros)
    (point : (zeros : Int) = exponent + (fraction.getD []).length) :
    Writes { negative := false, whole, fraction, exponent := none }
      (whole ++ fractionChars fraction) { coefficient, exponent } where
  proper := ⟨run, leading, runFraction, nofun⟩
  chars := List.append_nil _
  unsigned := rfl
  value := by
    rw [spelled, value, Decimal.value_mul_pow_ten]
    congr 2
    simp only [power]
    omega

theorem writes_behind_point (significand : Significand digits coefficient) (zeros : Nat)
    (point : exponent + zeros + digits.length = 0) :
    Writes
      { negative := false, whole := ['0']
        fraction := some (List.replicate zeros '0' ++ digits), exponent := none }
      ('0' :: '.' :: (List.replicate zeros '0' ++ digits)) { coefficient, exponent } := by
  have fraction : IsRun (List.replicate zeros '0' ++ digits) :=
    ⟨List.append_ne_nil_of_right_ne_nil _ significand.run.nonempty, fun character mem =>
      (List.mem_append.1 mem).elim isDigit_of_mem_replicate (significand.run.digit character)⟩
  refine writes_of_parts 0 isRun_zero (.inl rfl) (isRun_of_some fraction) ?_ ?_
  · rw [Nat.pow_zero, Nat.mul_one, ← significand.value]
    exact Numeral.ofChars_zeros_append (zeros + 1) digits
  · rw [Option.getD_some, List.length_append, List.length_replicate]
    omega

theorem writes_before_point (significand : Significand digits coefficient)
    (fractionOfWhole : Bool) (zeros : Nat) (point : exponent = zeros) :
    Writes
      { negative := false, whole := digits ++ List.replicate zeros '0'
        fraction := if fractionOfWhole then some ['0'] else none, exponent := none }
      (digits ++ List.replicate zeros '0' ++ if fractionOfWhole then ['.', '0'] else [])
      { coefficient, exponent } := by
  have whole : IsRun (digits ++ List.replicate zeros '0') :=
    significand.run.append fun _ => isDigit_of_mem_replicate
  have leading : (digits ++ List.replicate zeros '0').head? ≠ some '0' := by
    cases digits with
    | nil => exact absurd rfl significand.run.nonempty
    | cons first rest => exact significand.leading
  cases fractionOfWhole with
  | true =>
      refine writes_of_parts (zeros + 1) whole (.inr leading) (isRun_of_some isRun_zero) ?_ ?_
      · rw [if_pos rfl, Option.getD_some, List.append_assoc, ← List.replicate_succ',
          Numeral.ofChars_append_zeros, significand.value]
      · rw [if_pos rfl, Option.getD_some, List.length_singleton]
        omega
  | false =>
      refine writes_of_parts zeros whole (.inr leading) nofun ?_ ?_
      · rw [if_neg (by decide), Option.getD_none, List.append_nil,
          Numeral.ofChars_append_zeros, significand.value]
      · rw [if_neg (by decide), Option.getD_none, List.length_nil]
        omega

/-- The point divides the digits. -/
theorem writes_across_point (significand : Significand digits coefficient) {before : Nat}
    (inside : before + 1 < digits.length)
    (point : exponent + (digits.length - (before + 1) : Nat) = 0) :
    Writes
      { negative := false, whole := digits.take (before + 1)
        fraction := some (digits.drop (before + 1)), exponent := none }
      (digits.take (before + 1) ++ '.' :: digits.drop (before + 1))
      { coefficient, exponent } := by
  have whole : IsRun (digits.take (before + 1)) :=
    ⟨by simp [significand.run.nonempty], fun character mem =>
      significand.run.digit character (List.mem_of_mem_take mem)⟩
  have fraction : IsRun (digits.drop (before + 1)) :=
    ⟨by simpa using inside, fun character mem =>
      significand.run.digit character (List.mem_of_mem_drop mem)⟩
  have leading : (digits.take (before + 1)).head? ≠ some '0' := by
    rw [List.head?_take, if_neg (Nat.succ_ne_zero before)]
    exact significand.leading
  refine writes_of_parts 0 whole (.inr leading) (isRun_of_some fraction) ?_ ?_
  · rw [Option.getD_some, List.take_append_drop, significand.value, Nat.pow_zero, Nat.mul_one]
  · rw [Option.getD_some, List.length_drop]
    exact point.symm

/-- The digits of a decimal are written positionally by a literal. -/
theorem exists_writes_positionalText (significand : Significand digits coefficient)
    (fractionOfWhole : Bool) {place : Int} (placed : digits.length + exponent = place) :
    ∃ literal : Literal,
      literal.Writes (Layout.positionalText fractionOfWhole digits place)
        { coefficient, exponent } ∧
      (fractionOfWhole = true → literal.isWhole = false) ∧
      (fractionOfWhole = false → digits.getLast? ≠ some '0' → literal.IsPlain) := by
  have behind (zeros : Nat) : (List.replicate zeros '0' ++ digits).getLast? = digits.getLast? :=
    List.getLast?_append_of_ne_nil _ significand.run.nonempty
  match place with
  | .negSucc left =>
      refine ⟨_, writes_behind_point significand (left + 1) (by omega), fun _ => rfl,
        fun _ ending => ⟨rfl, ?_⟩⟩
      rintro fraction ⟨⟩
      rwa [behind]
  | .ofNat 0 =>
      rw [Int.ofNat_eq_natCast] at placed
      refine ⟨_, writes_behind_point significand 0 (by omega), fun _ => rfl,
        fun _ ending => ⟨rfl, ?_⟩⟩
      rintro fraction ⟨⟩
      exact ending
  | .ofNat (before + 1) =>
      rw [Int.ofNat_eq_natCast] at placed
      have text : Layout.positionalText fractionOfWhole digits (.ofNat (before + 1)) =
          if digits.length ≤ before + 1 then
            digits ++ List.replicate (before + 1 - digits.length) '0' ++
              (if fractionOfWhole then ['.', '0'] else [])
          else digits.take (before + 1) ++ '.' :: digits.drop (before + 1) := rfl
      rw [text]
      split
      · refine ⟨_, writes_before_point significand fractionOfWhole _ (by omega), ?_, ?_⟩
        · rintro rfl
          rfl
        · rintro rfl _
          exact ⟨rfl, nofun⟩
      · rename_i inside
        refine ⟨_, writes_across_point significand (by omega) (by omega), fun _ => rfl,
          fun _ ending => ⟨rfl, ?_⟩⟩
        rintro fraction ⟨⟩
        rwa [List.getLast?_drop, if_neg inside]

end Positional

section Scientific

variable {digits : List Char} {coefficient : Nat} {exponent power : Int}

def powerParts (power : Int) : Bool × List Char :=
  (decide (power < 0), Numeral.chars 10 power.natAbs)

theorem power_powerParts (negative : Bool) (whole : List Char) (fraction : Option (List Char))
    (power : Int) :
    Literal.power { negative, whole, fraction, exponent := some (powerParts power) } = power := by
  have read := Numeral.ofChars_chars (show 2 ≤ 10 by decide) (by decide) power.natAbs
  by_cases below : power < 0
  · simp only [Literal.power, powerParts, below, decide_true, read]
    omega
  · simp only [Literal.power, powerParts, below, decide_false, read]
    omega

theorem writes_scaled {whole : List Char} {fraction : Option (List Char)} (run : IsRun whole)
    (leading : whole.head? ≠ some '0')
    (runFraction : ∀ digits, fraction = some digits → IsRun digits)
    (value : Numeral.ofChars 10 (whole ++ fraction.getD []) = coefficient)
    (point : power = exponent + (fraction.getD []).length) :
    Writes { negative := false, whole, fraction, exponent := some (powerParts power) }
      (whole ++ fractionChars fraction ++
        'e' :: (if power < 0 then '-' else '+') :: Numeral.chars 10 power.natAbs)
      { coefficient, exponent } where
  proper := by
    refine ⟨run, .inr leading, runFraction, ?_⟩
    rintro sign digits ⟨⟩
    exact IsRun.chars power.natAbs
  chars := by simp [chars, exponentChars, powerParts]
  unsigned := rfl
  value := by
    rw [spelled, value, power_powerParts]
    congr 2
    dsimp only
    omega

/-- The digits of a decimal are written with a power of ten by a literal. -/
theorem exists_writes_scientificText (significand : Significand digits coefficient)
    (scaled : digits.length + exponent = power + 1) :
    ∃ literal : Literal,
      literal.Writes (Layout.scientificText digits power) { coefficient, exponent } ∧
      literal.isWhole = false := by
  obtain ⟨⟨nonempty, digit⟩, leading, value⟩ := significand
  match digits with
  | [] => exact absurd rfl nonempty
  | [first] =>
      rw [List.length_singleton] at scaled
      have noFraction (digits : List Char) (same : none = some digits) : IsRun digits :=
        nomatch same
      have written : Writes _ _ { coefficient, exponent } :=
        writes_scaled ⟨nonempty, digit⟩ leading noFraction value
          (show power = exponent + 0 by omega)
      exact ⟨_, written, rfl⟩
  | first :: second :: rest =>
      have whole : IsRun [first] :=
        ⟨List.cons_ne_nil first [], fun character mem => digit character (by simp_all)⟩
      have fraction : IsRun (second :: rest) :=
        ⟨List.cons_ne_nil second rest, fun character mem =>
          digit character (List.mem_cons_of_mem first mem)⟩
      rw [List.length_cons] at scaled
      have written : Writes _ _ { coefficient, exponent } :=
        writes_scaled whole leading (isRun_of_some fraction) value
          (show power = exponent + (second :: rest).length by omega)
      exact ⟨_, written, rfl⟩

end Scientific

/-! ## Literals of numbers -/

theorem exists_writes_zero (fractionOfWhole : Bool) :
    ∃ literal : Literal,
      literal.Writes (Layout.positionalText fractionOfWhole ['0'] 1)
        { coefficient := 0, exponent := 0 } ∧
      (fractionOfWhole = true → literal.isWhole = false) ∧
      (fractionOfWhole = false → literal.IsPlain) := by
  cases fractionOfWhole with
  | true =>
      exact ⟨_, writes_of_parts 1 isRun_zero (.inl rfl) (isRun_of_some isRun_zero) rfl rfl,
        fun _ => rfl, nofun⟩
  | false =>
      have noFraction (digits : List Char) (same : none = some digits) : IsRun digits :=
        nomatch same
      exact ⟨_, writes_of_parts 0 isRun_zero (.inl rfl) noFraction rfl rfl, nofun,
        fun _ => ⟨rfl, nofun⟩⟩

/-- Every layout writes the shortest decimal of a magnitude as a literal. -/
theorem exists_writes_magnitude (layout : Layout) (number : Double.Finite) :
    ∃ literal : Literal,
      literal.Writes (layout.magnitude number) (number.shortest layout.tie) ∧
      (layout.fractionOfWhole = true → literal.isWhole = false) ∧
      (layout.fractionOfWhole = false → (∀ power, layout.positional power = true) →
        literal.IsPlain) := by
  rw [Layout.magnitude]
  split
  · rename_i zero
    rw [Double.Finite.shortest, if_pos zero]
    obtain ⟨literal, written, notWhole, plain⟩ := exists_writes_zero layout.fractionOfWhole
    exact ⟨literal, written, notWhole, fun noFraction _ => plain noFraction⟩
  · rename_i positive
    have significand :=
      significand_chars (number.coefficient_shortest_ne_zero positive layout.tie)
    have ending := Numeral.getLast?_chars_ne
      (number.coefficient_shortest_mod_ne_zero positive layout.tie)
    dsimp only
    split
    · obtain ⟨literal, written, notWhole, plain⟩ :=
        exists_writes_positionalText significand layout.fractionOfWhole rfl
      exact ⟨literal, written, notWhole, fun noFraction _ => plain noFraction ending⟩
    · rename_i scientific
      obtain ⟨literal, written, notWhole⟩ :=
        exists_writes_scientificText significand (Int.sub_add_cancel _ 1).symm
      exact ⟨literal, written, fun _ => notWhole, fun _ always => absurd (always _) scientific⟩

/-- The literal is the text of a number in a layout, and spells its shortest decimal. -/
structure IsTextOf (literal : Literal) (layout : Layout) (number : Double.Finite) : Prop where
  proper : literal.Proper
  chars : literal.chars = (layout.text number).toList
  negative : literal.negative = (number.negative && (layout.signedZero || !number.isZero))
  value : literal.spelled.value = (number.shortest layout.tie).value
  notWhole : layout.fractionOfWhole = true → literal.isWhole = false
  plain : layout.fractionOfWhole = false → (∀ power, layout.positional power = true) →
    literal.IsPlain

theorem IsTextOf.rank {literal : Literal} {layout : Layout} {number : Double.Finite}
    (text : literal.IsTextOf layout number) : literal.spelled.rank = number.rank := by
  rw [Decimal.rank_eq_iff, text.value]
  exact (number.isShortest_shortest layout.tie).identifies

/-- Every layout writes a finite number as a literal. -/
theorem exists_isTextOf (layout : Layout) (number : Double.Finite) :
    ∃ literal : Literal, literal.IsTextOf layout number := by
  obtain ⟨literal, written, notWhole, plain⟩ := exists_writes_magnitude layout number
  have proper := written.proper
  refine ⟨{ literal with
    negative := number.negative && (layout.signedZero || !number.isZero) },
    ⟨proper.whole, proper.leading, proper.fraction, proper.exponent⟩, ?_, rfl, written.value,
    notWhole, fun noFraction always => ?_⟩
  · have magnitude := written.chars
    rw [chars, written.unsigned] at magnitude
    rw [Layout.text, String.toList_ofList, ← magnitude]
    simp [chars]
  · obtain ⟨positional, ending⟩ := plain noFraction always
    exact ⟨positional, ending⟩

/-- The literal is read as the double nearest to the decimal that it spells. -/
def IsRounded (literal : Literal) : Prop :=
  Double.ofDecimalStepwise literal.negative literal.decimal =
    Double.ofDecimal literal.negative literal.spelled

instance (literal : Literal) : Decidable literal.IsRounded :=
  inferInstanceAs (Decidable (_ = _))

theorem number?_of_isRounded {literal : Literal} {number : Double.Finite}
    (rounded : literal.IsRounded) (notWhole : literal.isWhole = false)
    (negative : literal.negative = number.negative)
    (rank : literal.spelled.rank = number.rank) : literal.number? = some (.float number) := by
  have nearest : Double.ofDecimal literal.negative literal.spelled = .finite number := by
    rw [Double.ofDecimal, rank, negative, Double.ofRank_of_lt number.rank_lt]
  have float : literal.float? = some (.float number) := by
    rw [float?, rounded, nearest]
  rw [number?, notWhole]
  split <;> simpa using float

/-- A finite number is read back from its text, if its literal is rounded correctly. -/
theorem exists_literal_of_float (number : Double.Finite) :
    ∃ literal : Literal, literal.Proper ∧ literal.chars = (floatLayout.text number).toList ∧
      (literal.IsRounded → literal.number? = some (.float number)) := by
  obtain ⟨literal, text⟩ := exists_isTextOf floatLayout number
  have sign : literal.negative = number.negative := by
    rw [text.negative]
    exact Bool.and_true _
  exact ⟨literal, text.proper, text.chars, fun rounded =>
    number?_of_isRounded rounded (text.notWhole rfl) sign text.rank⟩

end Literal

end Json

end ConditionalStyles
