import Mathlib.Computability.Language
import NamelistCatalog.Literal
import NamelistCatalog.Proofs.Text.Case
import NamelistCatalog.Proofs.Text.Trim

/-!
Literals by their grammar. The forms of numbers are written with the regular operators, and a literal has
the type of the form that its text belongs to. The forms do not depend on the case of ASCII letters, so
neither does the type.
-/

namespace NamelistCatalog

namespace Text

theorem isBlank_toLower (c : Char) : isBlank c.toLower = isBlank c := apply_toLower (by decide) c

theorem trim_asciiLower (s : List Char) : trim (asciiLower s) = asciiLower (trim s) := by
  have hblank : isBlank ∘ Char.toLower = isBlank := funext isBlank_toLower
  simp only [trim, trimStart, trimEnd, dropEndWhile, asciiLower, List.dropWhile_map, hblank,
    ← List.map_reverse]

end Text

namespace Literal

open Computability

def single (p : Char → Bool) : Language Char := {s | ∃ c, p c = true ∧ s = [c]}

def oneOf (cs : List Char) : Language Char := single cs.contains

def optional (l : Language Char) : Language Char := l + 1

def oneOrMore (l : Language Char) : Language Char := l * l∗

abbrev digit : Language Char := single Text.isDecimalDigit

def sign : Language Char := oneOf ['+', '-']

/-- An underscore and the kind of a number. -/
def kind : Language Char := oneOf ['_'] * oneOrMore (single Text.isWordChar)

/-- Digits with an optional point, or a point with digits after it. -/
def mantissa : Language Char :=
  oneOrMore digit * optional (oneOf ['.'] * digit∗) + oneOf ['.'] * oneOrMore digit

def exponentLetters : List Char := ['e', 'E', 'd', 'D', 'q', 'Q']

def exponent : Language Char := oneOf exponentLetters * (optional sign * oneOrMore digit)

def integers : Language Char := optional sign * (oneOrMore digit * optional kind)

def reals : Language Char := optional sign * (mantissa * (optional exponent * optional kind))

def logicalWords : List (List Char) :=
  [".true.".toList, ".false.".toList, ".t.".toList, ".f.".toList]

def logicals : Language Char := {s | Text.asciiLower s ∈ logicalWords}

def quoted : Language Char := oneOf ['\x27', '\x22'] * ⊤

variable {p : Char → Bool} {q : Char → Prop} {k l : Language Char} {s t : List Char}

/-- No text of the language starts with a character of which `q` fails. -/
def Starts (q : Char → Prop) (l : Language Char) : Prop := ∀ s ∈ l, ∀ c ∈ s.head?, q c

theorem mem_single_mul_iff {c : Char} : c :: s ∈ single p * l ↔ p c = true ∧ s ∈ l := by
  rw [Language.mem_mul]
  constructor
  · rintro ⟨_, ⟨d, hd, rfl⟩, t, ht, heq⟩
    obtain ⟨rfl, rfl⟩ := List.cons.inj heq
    exact ⟨hd, ht⟩
  · rintro ⟨hc, hs⟩
    exact ⟨[c], ⟨c, hc, rfl⟩, s, hs, rfl⟩

theorem nil_not_mem_single_mul : [] ∉ single p * l := by
  rw [Language.mem_mul]
  rintro ⟨_, ⟨d, hd, rfl⟩, t, ht, heq⟩
  cases heq

theorem mem_star_iff : s ∈ (single p)∗ ↔ ∀ c ∈ s, p c = true := by
  rw [Language.mem_kstar]
  constructor
  · rintro ⟨parts, rfl, hparts⟩ c hc
    obtain ⟨part, hpart, hmem⟩ := List.mem_flatten.mp hc
    obtain ⟨d, hd, rfl⟩ := hparts part hpart
    rw [List.mem_singleton.mp hmem]
    exact hd
  · intro h
    refine ⟨s.map fun c => [c], ?_, ?_⟩
    · rw [← List.flatMap_def, List.flatMap_singleton']
    · rw [List.forall_mem_map]
      exact fun c hc => ⟨c, h c hc, rfl⟩

theorem mem_optional_mul_iff : s ∈ optional k * l ↔ s ∈ k * l ∨ s ∈ l := by
  rw [optional, add_mul, one_mul, Language.mem_add]

theorem Starts.single_mul (h : ∀ c, p c = true → q c) : Starts q (single p * l) := by
  rintro s hs c hc
  obtain ⟨rest, rfl⟩ := List.head?_eq_some_iff.mp hc
  exact h c (mem_single_mul_iff.mp hs).1

theorem Starts.optional_mul (hk : Starts q (k * l)) (hl : Starts q l) :
    Starts q (optional k * l) := by
  intro s hs
  rcases mem_optional_mul_iff.mp hs with hs | hs
  · exact hk s hs
  · exact hl s hs

theorem Starts.optional (hk : Starts q k) : Starts q (optional k) := by
  intro s hs c hc
  rcases (Language.mem_add k 1 s).mp hs with hs | hs
  · exact hk s hs c hc
  · rw [(Language.mem_one s).mp hs] at hc
    cases hc

/-! Taking characters from the front as long as they belong to a class is no loss when nothing in what
follows starts with one of them. -/

theorem mem_star_mul_iff (hl : Starts (fun c => p c = false) l) :
    s ∈ (single p)∗ * l ↔ s.dropWhile p ∈ l := by
  rw [Language.mem_mul]
  constructor
  · rintro ⟨front, hfront, rest, hrest, rfl⟩
    rw [Text.dropWhile_append_of_head? (mem_star_iff.mp hfront) (hl rest hrest)]
    exact hrest
  · intro h
    refine ⟨s.takeWhile p, ?_, s.dropWhile p, h, List.takeWhile_append_dropWhile⟩
    exact mem_star_iff.mpr fun c hc => List.mem_takeWhile_imp hc

theorem mem_oneOrMore_mul_iff (hl : Starts (fun c => p c = false) l) :
    s ∈ oneOrMore (single p) * l ↔ s.takeWhile p ≠ [] ∧ s.dropWhile p ∈ l := by
  rw [oneOrMore, mul_assoc]
  cases s with
  | nil => simp [nil_not_mem_single_mul]
  | cons c rest =>
      rw [mem_single_mul_iff, mem_star_mul_iff hl]
      by_cases hc : p c = true
      · simp [hc]
      · simp [hc]

theorem mem_oneOrMore_iff : s ∈ oneOrMore (single p) ↔ s ≠ [] ∧ ∀ c ∈ s, p c = true := by
  rw [oneOrMore]
  cases s with
  | nil => simp [nil_not_mem_single_mul]
  | cons c rest =>
      rw [mem_single_mul_iff, mem_star_iff]
      simp

/-! The parts of a number. -/

theorem starts_oneOf {cs : List Char} (h : ∀ c ∈ cs, q c) : Starts q (oneOf cs * l) :=
  Starts.single_mul fun c hc => h c (List.contains_iff_mem.mp hc)

theorem starts_kind (h : q '_') : Starts q (optional kind) :=
  Starts.optional (starts_oneOf (by simpa using h))

theorem starts_exponent (h : ∀ c ∈ exponentLetters, q c) : Starts q (exponent * l) := by
  rw [exponent, mul_assoc]
  exact starts_oneOf h

theorem starts_digits (h : ∀ c, Text.isDecimalDigit c = true → q c) :
    Starts q (oneOrMore digit * l) := by
  rw [oneOrMore, mul_assoc]
  exact Starts.single_mul h

theorem starts_mantissa (h : ∀ c, Text.isDecimalDigit c = true → q c) (hpoint : q '.') :
    Starts q (mantissa * l) := by
  intro s hs
  rw [mantissa, add_mul, mul_assoc, mul_assoc] at hs
  rcases hs with hs | hs
  · exact starts_digits h s hs
  · exact starts_oneOf (by simpa using hpoint) s hs

theorem ne_of_isDecimalDigit {c d : Char} (hc : Text.isDecimalDigit c = true)
    (hd : Text.isDecimalDigit d = false) : c ≠ d := by
  rintro rfl
  rw [hc] at hd
  cases hd

/-- The characters with a meaning of their own in literals. -/
def marks : List Char := ['+', '-', '.', '_', '\x27', '\x22'] ++ exponentLetters

theorem isDecimalDigit_mark {c : Char} (hc : c ∈ marks) : Text.isDecimalDigit c = false := by
  have hmarks : marks.all (fun d => !Text.isDecimalDigit d) = true := by decide +kernel
  simpa using List.all_eq_true.mp hmarks c hc

theorem ne_mark {c d : Char} (hc : Text.isDecimalDigit c = true) (hd : d ∈ marks) : c ≠ d :=
  ne_of_isDecimalDigit hc (isDecimalDigit_mark hd)

theorem isKindSuffix_iff : isKindSuffix s = true ↔ s ∈ optional kind := by
  cases s with
  | nil => exact iff_of_true rfl (.inr rfl)
  | cons c rest =>
      rw [isKindSuffix, optional, Language.mem_add, kind, oneOf, mem_single_mul_iff,
        mem_oneOrMore_iff]
      simp [List.all_eq_true, and_assoc]

theorem mem_sign_mul_iff (hl : Starts (fun c => c ≠ '+' ∧ c ≠ '-') l) :
    s ∈ optional sign * l ↔ afterSign s ∈ l := by
  rw [mem_optional_mul_iff, sign, oneOf, afterSign.eq_def]
  split
  · rename_i rest
    have hunsigned : '+' :: rest ∉ l := fun h => (hl _ h '+' rfl).1 rfl
    simp [mem_single_mul_iff, hunsigned]
  · rename_i rest
    have hunsigned : '-' :: rest ∉ l := fun h => (hl _ h '-' rfl).2 rfl
    simp [mem_single_mul_iff, hunsigned]
  · rename_i hplus hminus
    apply or_iff_right
    cases s with
    | nil => exact nil_not_mem_single_mul
    | cons c rest =>
        rw [mem_single_mul_iff]
        rintro ⟨hc, -⟩
        rcases List.mem_pair.mp (List.contains_iff_mem.mp hc) with rfl | rfl
        · exact hplus rest rfl
        · exact hminus rest rfl

theorem ne_sign_of_isDecimalDigit {c : Char} (hc : Text.isDecimalDigit c = true) : c ≠ '+' ∧ c ≠ '-' :=
  ⟨ne_mark hc (by decide), ne_mark hc (by decide)⟩

theorem starts_unsigned : Starts (fun c => c ≠ '+' ∧ c ≠ '-') (oneOrMore digit * l) :=
  starts_digits fun _ => ne_sign_of_isDecimalDigit

theorem isInteger_iff : isInteger s = true ↔ s ∈ integers := by
  have hkind : Starts (fun c => Text.isDecimalDigit c = false) (optional kind) :=
    starts_kind (isDecimalDigit_mark (by decide))
  rw [integers, mem_sign_mul_iff starts_unsigned, mem_oneOrMore_mul_iff hkind, isInteger,
    Bool.and_eq_true, isKindSuffix_iff]
  simp

theorem contains_exponentLetters (c : Char) :
    exponentLetters.contains c = isExponentLetter c := by
  rw [Bool.eq_iff_iff]
  simp [exponentLetters, isExponentLetter, or_assoc]

/-- An exponent is taken whole or not at all. -/
theorem mem_exponent_mul_iff
    (hl : Starts (fun c => Text.isDecimalDigit c = false ∧ isExponentLetter c = false) l) :
    s ∈ optional exponent * l ↔ afterExponent s ∈ l := by
  have hdigits : Starts (fun c => Text.isDecimalDigit c = false) l := fun t ht c hc => (hl t ht c hc).1
  rw [mem_optional_mul_iff, exponent, oneOf, mul_assoc, mul_assoc]
  cases s with
  | nil => simp [nil_not_mem_single_mul, afterExponent]
  | cons c rest =>
      rw [mem_single_mul_iff, contains_exponentLetters, mem_sign_mul_iff starts_unsigned,
        mem_oneOrMore_mul_iff hdigits, afterExponent]
      split
      · rename_i hexponent
        rw [Bool.and_eq_true] at hexponent
        have hplain : c :: rest ∉ l := by
          intro h
          rw [(hl _ h c rfl).2] at hexponent
          cases hexponent.1
        have hdigit : (afterSign rest).takeWhile Text.isDecimalDigit ≠ [] := by
          simpa [-List.takeWhile_eq_nil_iff] using hexponent.2
        rw [or_iff_left hplain, and_iff_right hexponent.1, and_iff_right hdigit]
      · rename_i hexponent
        apply or_iff_right
        rintro ⟨hc, hdigit, -⟩
        exact hexponent (by simp [hc, hdigit])

theorem exists_of_mem_point_mul (h : s ∈ oneOf ['.'] * l) : ∃ rest, s = '.' :: rest := by
  cases s with
  | nil => exact absurd h nil_not_mem_single_mul
  | cons c rest =>
      rw [oneOf, mem_single_mul_iff, List.contains_iff_mem, List.mem_singleton] at h
      exact ⟨rest, by rw [h.1]⟩

theorem takeWhile_point (rest : List Char) : ('.' :: rest).takeWhile Text.isDecimalDigit = [] :=
  List.takeWhile_cons_of_neg (Bool.eq_false_iff.mp (isDecimalDigit_mark (by decide)))

theorem dropWhile_point (rest : List Char) :
    ('.' :: rest).dropWhile Text.isDecimalDigit = '.' :: rest :=
  List.dropWhile_cons_of_neg (Bool.eq_false_iff.mp (isDecimalDigit_mark (by decide)))

theorem point_mem_mul_iff : '.' :: s ∈ oneOf ['.'] * l ↔ s ∈ l := by
  rw [oneOf, mem_single_mul_iff]
  exact and_iff_right (by decide)

/-- Digits with a point are not confused with digits alone, for what follows starts with no point. -/
theorem mem_mantissa_mul_iff (hl : Starts (fun c => Text.isDecimalDigit c = false ∧ c ≠ '.') l) :
    s ∈ mantissa * l ↔ ∃ rest ∈ afterMantissa? s, rest ∈ l := by
  have hdigits : Starts (fun c => Text.isDecimalDigit c = false) l := fun t ht c hc => (hl t ht c hc).1
  have hfraction : Starts (fun c => Text.isDecimalDigit c = false)
      (optional (oneOf ['.'] * digit∗) * l) := by
    apply Starts.optional_mul ?_ hdigits
    rw [mul_assoc]
    exact starts_oneOf (List.forall_mem_singleton.mpr (isDecimalDigit_mark (by decide)))
  rw [mantissa, add_mul, Language.mem_add, mul_assoc, mul_assoc, mem_oneOrMore_mul_iff hfraction,
    mem_optional_mul_iff, mul_assoc, afterMantissa?]
  split
  · rename_i rest hnone hpoint
    have hs : s = '.' :: rest := by
      rw [← List.takeWhile_append_dropWhile (p := Text.isDecimalDigit) (l := s), hnone, hpoint,
        List.nil_append]
    rw [hnone, hs, point_mem_mul_iff, mem_oneOrMore_mul_iff hdigits]
    split
    · rename_i hempty
      simp [List.isEmpty_iff.mp hempty]
    · rename_i hempty
      simp [List.isEmpty_iff.not.mp hempty]
  · rename_i hnone hnopoint
    refine iff_of_false ?_ (by simp)
    rintro (⟨hsome, -⟩ | hpoint)
    · exact hsome hnone
    · obtain ⟨rest, rfl⟩ := exists_of_mem_point_mul hpoint
      exact hnopoint rest (dropWhile_point rest)
  · rename_i rest hsome hpoint
    -- The point cannot be left to what follows, which starts with none.
    have hrest : '.' :: rest ∉ l := fun h => (hl _ h '.' rfl).2 rfl
    have hnopoint : s ∉ oneOf ['.'] * (oneOrMore digit * l) := by
      intro h
      obtain ⟨_, rfl⟩ := exists_of_mem_point_mul h
      simp [takeWhile_point] at hsome
    rw [or_iff_left hnopoint, hsome, hpoint, point_mem_mul_iff, mem_star_mul_iff hdigits,
      or_iff_left hrest]
    simp
  · rename_i hsome hpoint
    have hnopoint : s ∉ oneOf ['.'] * (oneOrMore digit * l) := by
      intro h
      obtain ⟨_, rfl⟩ := exists_of_mem_point_mul h
      simp [takeWhile_point] at hsome
    have hwhole : s.dropWhile Text.isDecimalDigit ∉ oneOf ['.'] * (digit∗ * l) := by
      intro h
      obtain ⟨rest, hrest⟩ := exists_of_mem_point_mul h
      exact hpoint rest hrest
    rw [or_iff_left hnopoint, hsome, or_iff_right hwhole]
    simp

theorem isReal_iff : isReal s = true ↔ s ∈ reals := by
  have hkind : Starts (fun c => Text.isDecimalDigit c = false ∧ isExponentLetter c = false)
      (optional kind) := starts_kind ⟨isDecimalDigit_mark (by decide), by decide⟩
  have hexponent : Starts (fun c => Text.isDecimalDigit c = false ∧ c ≠ '.')
      (optional exponent * optional kind) := by
    apply Starts.optional_mul
    · apply starts_exponent
      intro c hc
      refine ⟨isDecimalDigit_mark (List.mem_append_right _ hc), ?_⟩
      rintro rfl
      simp [exponentLetters] at hc
    · exact starts_kind ⟨isDecimalDigit_mark (by decide), by decide⟩
  have hunsigned : Starts (fun c => c ≠ '+' ∧ c ≠ '-')
      (mantissa * (optional exponent * optional kind)) :=
    starts_mantissa (fun _ => ne_sign_of_isDecimalDigit) (by decide)
  rw [reals, mem_sign_mul_iff hunsigned, mem_mantissa_mul_iff hexponent, isReal]
  simp only [mem_exponent_mul_iff hkind, ← isKindSuffix_iff]
  split
  · rename_i rest hrest
    simp [hrest]
  · rename_i hrest
    simp [hrest]

theorem mem_logicals_iff : s ∈ logicals ↔ Text.asciiLower s ∈ logicalWords := Iff.rfl

theorem isLogical_iff : isLogical s = true ↔ s ∈ logicals := by
  have hword : ∀ word : String, String.ofList (Text.asciiLower s) = word ↔
      Text.asciiLower s = word.toList := fun word => by
    rw [← String.toList_inj, String.toList_ofList]
  rw [mem_logicals_iff, logicalWords]
  simp only [isLogical, Bool.or_eq_true, beq_iff_eq, hword, List.mem_cons, List.not_mem_nil, or_false,
    or_assoc]

theorem isQuoted_iff : isQuoted s = true ↔ s ∈ quoted := by
  cases s with
  | nil => exact iff_of_false (by decide) nil_not_mem_single_mul
  | cons c rest =>
      rw [quoted, oneOf, mem_single_mul_iff, List.contains_iff_mem, List.mem_pair, isQuoted, isQuote,
        Bool.or_eq_true, beq_iff_eq, beq_iff_eq]
      exact (and_iff_left trivial).symm

/-! The forms of literals, in any case of their letters. -/

/-- The language does not tell an ASCII capital letter from the small one. -/
def Caseless (l : Language Char) : Prop := ∀ s, Text.asciiLower s ∈ l ↔ s ∈ l

theorem Caseless.mul (hk : Caseless k) (hl : Caseless l) : Caseless (k * l) := by
  intro s
  rw [Language.mem_mul, Language.mem_mul]
  constructor
  · rintro ⟨a, ha, b, hb, hab⟩
    obtain ⟨a, b, rfl, rfl, rfl⟩ := List.map_eq_append_iff.mp hab.symm
    exact ⟨a, (hk a).mp ha, b, (hl b).mp hb, rfl⟩
  · rintro ⟨a, ha, b, hb, rfl⟩
    exact ⟨_, (hk a).mpr ha, _, (hl b).mpr hb, List.map_append.symm⟩

theorem Caseless.add (hk : Caseless k) (hl : Caseless l) : Caseless (k + l) := by
  intro s
  rw [Language.mem_add, Language.mem_add]
  exact or_congr (hk s) (hl s)

theorem caseless_one : Caseless 1 := by
  intro s
  rw [Language.mem_one, Language.mem_one]
  exact List.map_eq_nil_iff

theorem Caseless.optional (h : Caseless l) : Caseless (optional l) := h.add caseless_one

theorem caseless_single (h : ∀ c : Char, p c.toLower = p c) : Caseless (single p) := by
  intro s
  constructor
  · rintro ⟨c, hc, hs⟩
    obtain ⟨d, rfl, rfl⟩ := List.map_eq_singleton_iff.mp hs
    exact ⟨d, (h d).symm.trans hc, rfl⟩
  · rintro ⟨c, hc, rfl⟩
    exact ⟨c.toLower, (h c).trans hc, rfl⟩

theorem caseless_star (h : ∀ c : Char, p c.toLower = p c) : Caseless (single p)∗ := by
  intro s
  rw [mem_star_iff, mem_star_iff, Text.asciiLower, List.forall_mem_map]
  exact forall₂_congr fun c _ => by rw [h c]

theorem caseless_oneOrMore (h : ∀ c : Char, p c.toLower = p c) : Caseless (oneOrMore (single p)) :=
  (caseless_single h).mul (caseless_star h)

theorem isDecimalDigit_isWordChar_toLower (c : Char) :
    (Text.isDecimalDigit c.toLower, Text.isWordChar c.toLower) =
      (Text.isDecimalDigit c, Text.isWordChar c) :=
  Text.apply_toLower (f := fun d => (Text.isDecimalDigit d, Text.isWordChar d)) (by decide +kernel) c

theorem isDecimalDigit_toLower (c : Char) :
    Text.isDecimalDigit c.toLower = Text.isDecimalDigit c :=
  congrArg Prod.fst (isDecimalDigit_isWordChar_toLower c)

theorem isWordChar_toLower (c : Char) : Text.isWordChar c.toLower = Text.isWordChar c :=
  congrArg Prod.snd (isDecimalDigit_isWordChar_toLower c)

theorem caseless_oneOf {cs : List Char}
    (h : ∀ n < 26, cs.contains (Char.ofNat (n + 97)) = cs.contains (Char.ofNat (n + 65))) :
    Caseless (oneOf cs) :=
  caseless_single (Text.apply_toLower h)

theorem caseless_digits : Caseless (oneOrMore digit) := caseless_oneOrMore isDecimalDigit_toLower

theorem caseless_sign : Caseless sign := caseless_oneOf (by decide)

theorem caseless_kind : Caseless kind :=
  (caseless_oneOf (by decide)).mul (caseless_oneOrMore isWordChar_toLower)

theorem caseless_mantissa : Caseless mantissa := by
  have hpoint : Caseless (oneOf ['.']) := caseless_oneOf (by decide)
  have hfraction : Caseless (oneOf ['.'] * digit∗) := hpoint.mul (caseless_star isDecimalDigit_toLower)
  exact (caseless_digits.mul hfraction.optional).add (hpoint.mul caseless_digits)

theorem caseless_exponent : Caseless exponent :=
  (caseless_oneOf (by decide)).mul (caseless_sign.optional.mul caseless_digits)

theorem caseless_integers : Caseless integers :=
  caseless_sign.optional.mul (caseless_digits.mul caseless_kind.optional)

theorem caseless_reals : Caseless reals :=
  caseless_sign.optional.mul
    (caseless_mantissa.mul (caseless_exponent.optional.mul caseless_kind.optional))

theorem caseless_logicals : Caseless logicals := fun s => by
  rw [mem_logicals_iff, mem_logicals_iff, Text.asciiLower_asciiLower]

theorem caseless_quoted : Caseless quoted :=
  (caseless_oneOf (by decide)).mul fun _ => Iff.rfl

/-! No literal has two of the forms, but for the integers, which are reals too. -/

theorem not_mem_logicals (hl : Caseless l) (hwords : ∀ word ∈ logicalWords, word ∉ l) (hs : s ∈ l) :
    s ∉ logicals :=
  fun h => hwords _ h ((hl s).mpr hs)

theorem logicalWords_other : ∀ word ∈ logicalWords,
    ¬isQuoted word = true ∧ ¬isInteger word = true ∧ ¬isReal word = true := by
  decide +kernel

theorem quoted_not_logical (h : s ∈ quoted) : s ∉ logicals :=
  not_mem_logicals caseless_quoted (fun word hword => isQuoted_iff.not.mp (logicalWords_other word hword).1) h

theorem integer_not_logical (h : s ∈ integers) : s ∉ logicals :=
  not_mem_logicals caseless_integers
    (fun word hword => isInteger_iff.not.mp (logicalWords_other word hword).2.1) h

theorem real_not_logical (h : s ∈ reals) : s ∉ logicals :=
  not_mem_logicals caseless_reals
    (fun word hword => isReal_iff.not.mp (logicalWords_other word hword).2.2) h

theorem isQuote_of_isDecimalDigit {c : Char} (hc : Text.isDecimalDigit c = true) : isQuote c = false := by
  rw [isQuote, Bool.or_eq_false_iff, beq_eq_false_iff_ne, beq_eq_false_iff_ne]
  exact ⟨ne_mark hc (by decide), ne_mark hc (by decide)⟩

theorem starts_signed (hl : Starts (fun c => isQuote c = false) l) :
    Starts (fun c => isQuote c = false) (optional sign * l) :=
  Starts.optional_mul (starts_oneOf (by simp [isQuote])) hl

theorem not_mem_quoted (hl : Starts (fun c => isQuote c = false) l) (hs : s ∈ l) : s ∉ quoted := by
  rw [← isQuoted_iff]
  cases s with
  | nil => decide
  | cons c rest =>
      rw [isQuoted, hl _ hs c rfl]
      exact Bool.false_ne_true

theorem integer_not_quoted (h : s ∈ integers) : s ∉ quoted :=
  not_mem_quoted (starts_signed (starts_digits fun _ => isQuote_of_isDecimalDigit)) h

theorem real_not_quoted (h : s ∈ reals) : s ∉ quoted :=
  not_mem_quoted (starts_signed (starts_mantissa (fun _ => isQuote_of_isDecimalDigit) (by decide))) h

/-! The type of a literal. -/

theorem apply_asciiLower {form : List Char → Bool} (hform : ∀ s, form s = true ↔ s ∈ l)
    (hl : Caseless l) (s : List Char) : form (Text.asciiLower s) = form s := by
  rw [Bool.eq_iff_iff, hform, hform]
  exact hl s

theorem infer_asciiLower (literal : List Char) : infer (Text.asciiLower literal) = infer literal := by
  simp only [infer, Text.trim_asciiLower,
    apply_asciiLower (fun _ => isLogical_iff) caseless_logicals,
    apply_asciiLower (fun _ => isQuoted_iff) caseless_quoted,
    apply_asciiLower (fun _ => isInteger_iff) caseless_integers,
    apply_asciiLower (fun _ => isReal_iff) caseless_reals]

theorem infer_eq_of_asciiLower {literal other : List Char}
    (h : Text.asciiLower other = Text.asciiLower literal) : infer other = infer literal := by
  rw [← infer_asciiLower other, h, infer_asciiLower]

/-- A literal has the type of the form that its trimmed text belongs to, an integer before a real, and is
taken for text when it belongs to none. The case of ASCII letters makes no difference. -/
theorem infer_forms (literal : List Char) :
    (infer literal = ⟨.integer, false⟩ ↔ Text.trim literal ∈ integers) ∧
      (infer literal = ⟨.real, false⟩ ↔
        Text.trim literal ∈ reals ∧ Text.trim literal ∉ integers) ∧
      (infer literal = ⟨.logical, false⟩ ↔ Text.trim literal ∈ logicals) ∧
      (infer literal = ⟨.character, false⟩ ↔ Text.trim literal ∈ quoted) ∧
      (infer literal = ⟨.character, true⟩ ↔
        Text.trim literal ∉ integers ∧ Text.trim literal ∉ reals ∧ Text.trim literal ∉ logicals ∧
          Text.trim literal ∉ quoted) ∧
      ∀ other, Text.asciiLower other = Text.asciiLower literal → infer other = infer literal := by
  have hlogical : Text.trim literal ∈ logicals → Text.trim literal ∉ quoted ∧
      Text.trim literal ∉ integers ∧ Text.trim literal ∉ reals := fun h =>
    ⟨fun hform => quoted_not_logical hform h, fun hform => integer_not_logical hform h,
      fun hform => real_not_logical hform h⟩
  have hquoted : Text.trim literal ∈ quoted → Text.trim literal ∉ integers ∧
      Text.trim literal ∉ reals := fun h =>
    ⟨fun hform => integer_not_quoted hform h, fun hform => real_not_quoted hform h⟩
  have hinfer : infer literal = if isLogical (Text.trim literal) then ⟨.logical, false⟩
      else if isQuoted (Text.trim literal) then ⟨.character, false⟩
      else if isInteger (Text.trim literal) then ⟨.integer, false⟩
      else if isReal (Text.trim literal) then ⟨.real, false⟩
      else ⟨.character, true⟩ := rfl
  rw [← and_assoc, ← and_assoc, ← and_assoc, ← and_assoc]
  refine ⟨?_, fun other => infer_eq_of_asciiLower⟩
  simp only [← isLogical_iff, ← isQuoted_iff, ← isInteger_iff, ← isReal_iff] at hlogical hquoted ⊢
  split at hinfer
  · rename_i h
    simp [hinfer, h, hlogical h]
  · rename_i hword
    split at hinfer
    · rename_i h
      simp [hinfer, hword, h, hquoted h]
    · rename_i hquote
      split at hinfer
      · rename_i h
        simp [hinfer, hword, hquote, h]
      · rename_i hinteger
        split at hinfer
        · rename_i h
          simp [hinfer, hword, hquote, hinteger, h]
        · rename_i hreal
          simp [hinfer, hword, hquote, hinteger, hreal]

end Literal

end NamelistCatalog
