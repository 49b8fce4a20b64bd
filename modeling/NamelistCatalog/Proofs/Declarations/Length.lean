import NamelistCatalog.Proofs.Declarations.Place

namespace NamelistCatalog

/-- A length behind a name: digits, or an expression in parentheses. -/
inductive LengthSuffix
  | digits (ds : List Char)
  | expression (e : List Char)

namespace LengthSuffix

def text : LengthSuffix → List Char
  | digits ds => '*' :: ds
  | expression e => '*' :: parenthesized (some e)

def IsBalanced : LengthSuffix → Prop
  | digits ds => ds.all Char.isDigit = true
  | expression e => IsNested e

/-- The rank that a length has as a dimension list. -/
def rank? : LengthSuffix → Option UInt8
  | digits _ => none
  | expression e => Declaration.listRank? (parenthesized (some e))

end LengthSuffix

instance (length : LengthSuffix) : Decidable length.IsBalanced :=
  match length with
  | .digits _ => inferInstanceAs (Decidable (_ = true))
  | .expression e => inferInstanceAs (Decidable (IsNested e))

section Lengths

variable {extents : Option (List Char)} {length : LengthSuffix}

theorem LengthSuffix.isEntityTail_text (h : length.IsBalanced) : IsEntityTail length.text := by
  cases length with
  | digits ds => exact isEntityTail_digits h
  | expression e =>
      apply isEntityTail_cons
      apply isEntityText_parenthesized
      rintro l ⟨⟩
      exact h

theorem LengthSuffix.listRank?_text (h : length.IsBalanced) :
    Declaration.listRank? length.text = length.rank? := by
  cases length with
  | digits ds =>
      exact Declaration.listRank?_eq_none fun hmem =>
        absurd (isDeclarationChar_of_mem_digits h hmem) (by decide)
  | expression e => exact Declaration.listRank?_append_left (s := ['*']) (by decide) _

theorem listRank?_append_length (h : ∀ l ∈ extents, IsDimensionList l) (hlength : length.IsBalanced) :
    Declaration.listRank? (parenthesized extents ++ length.text) =
      (Declaration.listRank? (parenthesized extents)).or length.rank? := by
  cases extents with
  | none => exact LengthSuffix.listRank?_text hlength
  | some l =>
      obtain ⟨r, hr⟩ := Option.isSome_iff_exists.mp (h l rfl).closed
      rw [Declaration.listRank?_append_right hr, hr, Option.some_or]

end Lengths

namespace EntityPlace

variable {p : EntityPlace} {extents : Option (List Char)} {length : LengthSuffix}

/-- A length changes the rank if it is read as a dimension list of another rank than the attribute's. -/
theorem rank_append_length_eq_iff (hextents : ∀ l ∈ extents, IsDimensionList l)
    (hlength : length.IsBalanced) :
    p.rank (parenthesized extents ++ length.text) = p.rank (parenthesized extents) ↔
      extents.isSome = true ∨ ∀ r ∈ length.rank?, r = p.attributeRank := by
  rw [rank, listRank?_append_length hextents hlength, rank]
  cases extents with
  | none =>
      have hnone : Declaration.listRank? (parenthesized none) = none :=
        Declaration.listRank?_eq_none (by simp [parenthesized])
      rw [hnone, Option.none_or]
      cases length.rank? <;> simp
  | some l =>
      obtain ⟨r, hr⟩ := Option.isSome_iff_exists.mp (hextents l rfl).closed
      rw [hr]
      simp

end EntityPlace

namespace DeclarationsDocument

/-- Two documents that differ in the length of an entity declare the same names with the same types on
the same lines, and the same ranks but for that of the entity. Its rank is the same too if the entity has a
dimension list, if its length is given by digits, or if the list that the length makes has the rank of the
dimension attribute; else it is not. -/
theorem parse_length (origin : String) {text lengthened : List Char} {before after : List CodeLine}
    {line : Nat} {p : EntityPlace} {name : String} {extents : Option (List Char)}
    {length : LengthSuffix} (hname : Name.isValid name = true)
    (hextents : ∀ l ∈ extents, IsDimensionList l) (hlength : length.IsBalanced) (hplace : p.IsOpen)
    (hbefore : ∀ s ∈ before, Declaration.endsSection s.text = false)
    (htext : CodeLine.ofLines (Text.lines text) =
      before ++ ⟨line, p.statement (name.toList ++ parenthesized extents)⟩ :: after)
    (hlengthened : CodeLine.ofLines (Text.lines lengthened) =
      before ++ ⟨line, p.statement (name.toList ++ (parenthesized extents ++ length.text))⟩ :: after) :
    (∃ front back : DeclarationsDocument,
      parse origin text = front.append (append
        { declarations :=
            [{ name, valueType := p.valueType, dim := p.rank (parenthesized extents), line }] } back) ∧
      parse origin lengthened = front.append (append
        { declarations :=
            [{ name, valueType := p.valueType
               dim := p.rank (parenthesized extents ++ length.text), line }] } back)) ∧
      (p.rank (parenthesized extents ++ length.text) = p.rank (parenthesized extents) ↔
        extents.isSome = true ∨ ∀ r ∈ length.rank?, r = p.attributeRank) := by
  refine ⟨?_, EntityPlace.rank_append_length_eq_iff hextents hlength⟩
  obtain ⟨front, back, hparse⟩ := hplace.exists_parse_eq origin hname hbefore line after
  have hshort : IsEntityTail (parenthesized extents) := isEntityTail_parenthesized hextents
  have hlong : IsEntityTail (parenthesized extents ++ length.text) :=
    hshort.append (LengthSuffix.isEntityTail_text hlength)
  exact ⟨front, back, hparse hshort htext, hparse hlong hlengthened⟩

/-- A place between two other names, in front of an initial value. -/
def betweenNames : EntityPlace :=
  { specification := "character, dimension(5, 2) ".toList
    earlier := some " title = 'x, y'".toList
    indent := " ".toList
    gap := " ".toList
    later := "= 'z', b".toList }

def betweenNamesText (entity : String) : List Char :=
  ("implicit none\ncharacter, dimension(5, 2) :: title = 'x, y', " ++ entity ++ " = 'z', b\n").toList

theorem isOpen_betweenNames : betweenNames.IsOpen where
  colons := by decide
  typed := by decide +kernel
  attributes := by decide +kernel
  earlier := by
    rintro t ⟨⟩
    decide
  indent := by decide
  gap := by decide
  later := by
    rintro c ⟨⟩
    exact .inr rfl

theorem parse_length_betweenNames :
    betweenNames.IsOpen ∧ betweenNames.attributeRank = 2 ∧
      (LengthSuffix.expression "max(4, n)".toList).IsBalanced ∧
      parse "a" (betweenNamesText "tag(3)*(max(4, n))") = parse "a" (betweenNamesText "tag(3)") := by
  have hbalanced : (LengthSuffix.expression "max(4, n)".toList).IsBalanced := by decide +kernel
  have hread := @parse_length "a" (betweenNamesText "tag(3)") (betweenNamesText "tag(3)*(max(4, n))")
    [⟨1, "implicit none".toList⟩] [] 2 betweenNames "tag" (some "3".toList)
    (.expression "max(4, n)".toList) (by decide) (by decide +kernel) hbalanced isOpen_betweenNames (by decide)
    (by decide +kernel) (by decide +kernel)
  obtain ⟨⟨front, back, htext, hlengthened⟩, hrank⟩ := hread
  refine ⟨isOpen_betweenNames, by decide +kernel, hbalanced, ?_⟩
  rw [htext, hlengthened, hrank.mpr (.inl rfl)]

/-- A length in parentheses makes an array of a scalar. -/
theorem parse_parenthesizedLength :
    Name.isValid "a" = true ∧ (LengthSuffix.expression "20".toList).IsBalanced ∧
      parse "a" "character :: a\n".toList =
        { declarations := [{ name := "a", valueType := .character, dim := 0, line := 1 }] } ∧
      parse "a" "character :: a*(20)\n".toList =
        { declarations := [{ name := "a", valueType := .character, dim := 1, line := 1 }] } := by
  decide +kernel

end DeclarationsDocument

end NamelistCatalog
