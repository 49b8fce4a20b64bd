import NamelistCatalog.Proofs.Declarations.Entity
import NamelistCatalog.Proofs.Text.Search

namespace NamelistCatalog

/-- The intrinsic types that a declaration may name. -/
inductive IntrinsicType
  | logical
  | integer
  | real
  | character
  | doublePrecision
deriving DecidableEq, Repr

namespace IntrinsicType

def word : IntrinsicType → String
  | logical => "logical"
  | integer => "integer"
  | real => "real"
  | character => "character"
  | doublePrecision => "double precision"

def valueType : IntrinsicType → ValueType
  | logical => .logical
  | integer => .integer
  | real => .real
  | character => .character
  | doublePrecision => .real

end IntrinsicType

/-- A declaration of entities of one type. -/
structure TypeStatement where
  kind : IntrinsicType
  keyword : List Char
  selector : Option (List Char) := none
  dimension : Option (List Char) := none
  entities : List DeclaredEntity

namespace TypeStatement

/-- The type, as it stands in front of the attributes. -/
def typeText (s : TypeStatement) : List Char := s.keyword ++ parenthesized s.selector

/-- The dimension attribute behind its comma. -/
def dimensionText (s : TypeStatement) : List Char :=
  match s.dimension with
  | none => []
  | some extents => ',' :: ' ' :: ("dimension".toList ++ parenthesized (some extents))

/-- The attributes as they stand between the commas. -/
def attributes (s : TypeStatement) : List (List Char) :=
  match s.dimension with
  | none => []
  | some extents => [' ' :: ("dimension".toList ++ parenthesized (some extents)) ++ [' ']]

/-- What stands in front of the double colon. -/
def specification (s : TypeStatement) : List Char := s.typeText ++ (s.dimensionText ++ [' '])

def entityText (s : TypeStatement) : List Char :=
  Text.joinWith [','] (s.entities.map DeclaredEntity.text)

def line (s : TypeStatement) : Line := s.specification ++ ("::".toList ++ s.entityText)

/-- The declarations of the statement when it stands on this line. -/
def declarations (s : TypeStatement) (line : Nat) : List Declaration :=
  s.entities.map fun e => e.declaration s.kind.valueType s.dimension line

@[mk_iff]
structure IsCanonical (s : TypeStatement) : Prop where
  keyword : Text.asciiLower s.keyword = s.kind.word.toList
  selector : ∀ t ∈ s.selector, IsParenthesisList t ∧ Text.contains "::".toList t = false
  dimension : ∀ t ∈ s.dimension, IsParenthesisList t ∧ Text.contains "::".toList t = false
  entities_ne : s.entities ≠ []
  entities : ∀ e ∈ s.entities, e.IsCanonical

end TypeStatement

instance (s : TypeStatement) : Decidable s.IsCanonical := decidable_of_iff' _ s.isCanonical_iff

theorem IntrinsicType.valueType_ne_unknown (kind : IntrinsicType) :
    (kind.valueType == .unknown) = false := by
  cases kind <;> rfl

theorem IntrinsicType.of_mem_word (kind : IntrinsicType) {c : Char} (hc : c ∈ kind.word.toList) :
    c.isAlpha = true ∨ c = ' ' := by
  have hall : kind.word.toList.all (fun c => c.isAlpha || c == ' ') = true := by
    cases kind <;> decide
  simpa using List.all_eq_true.mp hall c hc

theorem IntrinsicType.isTrimmed_word (kind : IntrinsicType) : Text.IsTrimmed kind.word.toList := by
  cases kind <;> decide

theorem isAlpha_or_toLower_eq (c : Char) : c.isAlpha = true ∨ c.toLower = c := by
  cases hupper : c.isUpper with
  | true => exact .inl (Bool.or_eq_true_iff.mpr (.inl hupper))
  | false =>
      refine .inr (dif_neg ?_)
      intro hrange
      have htrue : c.isUpper = true := decide_eq_true hrange
      rw [hupper] at htrue
      cases htrue

theorem isBlank_of_isBlank_toLower {c : Char} (h : Text.isBlank c.toLower = false) :
    Text.isBlank c = false := by
  rcases isAlpha_or_toLower_eq c with halpha | hsame
  · exact Name.isBlank_of_isNameChar (Name.isNameChar_of_isAlpha halpha)
  · rw [hsame] at h
    exact h

theorem isTrimmed_of_asciiLower {s : List Char} (h : Text.IsTrimmed (Text.asciiLower s)) :
    Text.IsTrimmed s := by
  rw [Text.asciiLower] at h
  refine ⟨?_, ?_⟩
  · intro c hc
    apply isBlank_of_isBlank_toLower
    apply h.1
    rw [List.head?_map, Option.mem_def.mp hc]
    rfl
  · intro c hc
    apply isBlank_of_isBlank_toLower
    apply h.2
    rw [List.getLast?_map, Option.mem_def.mp hc]
    rfl

theorem isDeclarationChar_of_toLower {c : Char} (h : c.toLower.isAlpha = true ∨ c.toLower = ' ') :
    isDeclarationChar c = true := by
  have halpha : c.isAlpha = true ∨ c = ' ' := by
    rcases isAlpha_or_toLower_eq c with halpha | hsame
    · exact .inl halpha
    · rw [hsame] at h
      exact h
  rcases halpha with halpha | rfl
  · exact isDeclarationChar_of_isNameChar (Name.isNameChar_of_isAlpha halpha)
  · decide

namespace Declaration

variable {s t : List Char}

theorem endsSection_append_colons (s t : List Char) :
    endsSection (s ++ ("::".toList ++ t)) = "contains ".toList.isPrefixOf (Text.asciiLower s) := by
  have hlowered : Text.asciiLower (s ++ ("::".toList ++ t)) =
      Text.asciiLower s ++ ':' :: ':' :: Text.asciiLower t := List.map_append
  have hword : Text.asciiLower (s ++ ("::".toList ++ t)) ≠ "contains".toList := by
    intro heq
    have hcolon : ':' ∈ "contains".toList := by
      rw [← heq, hlowered]
      simp
    exact absurd hcolon (by decide)
  rw [endsSection, beq_eq_false_iff_ne.mpr hword, Bool.false_or, hlowered, Bool.eq_iff_iff,
    List.isPrefixOf_iff_prefix, List.isPrefixOf_iff_prefix]
  constructor
  · exact Text.isPrefix_of_isPrefix_append_cons (by decide)
  · intro h
    exact h.trans (List.prefix_append _ _)

theorem typeOfSpec_append_eq_unknown (hs : Text.asciiLower s = "contains".toList) (t : List Char) :
    typeOfSpec (s ++ t) = .unknown := by
  have hword : Text.IsTrimmed "contains".toList := by decide
  have htrimmed : Text.IsTrimmed s := by
    apply isTrimmed_of_asciiLower
    rw [hs]
    exact hword
  have hne : s ≠ [] := by
    rintro rfl
    cases hs
  have hletters : ∀ c ∈ "contains".toList, (c.isAlpha || c == ' ') = true :=
    List.all_eq_true.mp (by decide)
  have hlowered : ∀ rest, Text.asciiLower (s ++ rest) = "contains".toList ++ Text.asciiLower rest := by
    intro rest
    rw [← hs]
    exact List.map_append
  have hother : ∀ (rest : List Char) (word : String), word.toList.take 3 ≠ "con".toList →
      (String.ofList ("contains".toList ++ rest) == word) = false := by
    intro rest word hword
    rw [beq_eq_false_iff_ne]
    rintro rfl
    rw [String.toList_ofList] at hword
    exact hword rfl
  rw [typeOfSpec, htrimmed.trim_append hne, hlowered, List.takeWhile_append_of_pos hletters,
    hword.trim_append (by decide)]
  rw [hother _ "logical" (by decide), hother _ "character" (by decide), hother _ "integer" (by decide),
    hother _ "real" (by decide), hother _ "double precision" (by decide),
    hother _ "doubleprecision" (by decide)]
  rfl

theorem typeOfSpec_headD_eq_unknown (h : "contains".toList <+: Text.asciiLower s) :
    typeOfSpec ((splitTopLevel ',' s).headD []) = .unknown := by
  obtain ⟨rest, hrest⟩ := h
  obtain ⟨word, more, rfl, hword, -⟩ := List.map_eq_append_iff.mp hrest.symm
  have hchars : ∀ c ∈ word, isDeclarationChar c = true := by
    intro c hc
    apply isDeclarationChar_of_toLower
    have hmem : c.toLower ∈ "contains".toList := by
      rw [← hword]
      exact List.mem_map_of_mem hc
    exact .inl (List.all_eq_true.mp (by decide) _ hmem)
  have huncut : Nesting.Uncut ',' word := uncut_of_isDeclarationChar hchars (by decide)
  rw [splitTopLevel, Nesting.cutFrom_append huncut.whole]
  exact typeOfSpec_append_eq_unknown hword _

theorem endsSection_eq_false (h : typeOfSpec ((splitTopLevel ',' s).headD []) ≠ .unknown)
    (t : List Char) : endsSection (s ++ ("::".toList ++ t)) = false := by
  rw [endsSection_append_colons, Bool.eq_false_iff]
  intro hend
  rw [List.isPrefixOf_iff_prefix] at hend
  have hword : "contains".toList <+: "contains ".toList := List.prefix_append _ [' ']
  exact h (typeOfSpec_headD_eq_unknown (hword.trans hend))

end Declaration

namespace TypeStatement.IsCanonical

variable {s : TypeStatement} {sep : Char}

theorem isDeclarationChar_keyword (h : s.IsCanonical) {c : Char} (hc : c ∈ s.keyword) :
    isDeclarationChar c = true := by
  apply isDeclarationChar_of_toLower
  apply s.kind.of_mem_word
  rw [← h.keyword]
  exact List.mem_map_of_mem hc

theorem keyword_ne_nil (h : s.IsCanonical) : s.keyword ≠ [] := by
  intro hnil
  have hword := h.keyword
  rw [hnil] at hword
  cases hkind : s.kind <;> rw [hkind] at hword <;> cases hword

theorem isTrimmed_keyword (h : s.IsCanonical) : Text.IsTrimmed s.keyword := by
  apply isTrimmed_of_asciiLower
  rw [h.keyword]
  exact s.kind.isTrimmed_word

theorem isTrimmed_typeText (h : s.IsCanonical) : Text.IsTrimmed s.typeText :=
  h.isTrimmed_keyword.append isTrimmed_parenthesized

theorem typeText_ne_nil (h : s.IsCanonical) : s.typeText ≠ [] := by
  rw [typeText]
  exact List.append_ne_nil_of_left_ne_nil h.keyword_ne_nil _

theorem uncut_typeText (h : s.IsCanonical) (hsep : isDeclarationChar sep = false)
    (hmarker : Nesting.isMarker sep = false) : Nesting.Uncut sep s.typeText :=
  (uncut_of_isDeclarationChar (fun _ => h.isDeclarationChar_keyword) hsep).append
    (uncut_parenthesized (fun t ht => (h.selector t ht).1.nested) hmarker)

theorem typeOfSpec_eq (h : s.IsCanonical) {spec : List Char} (hspec : Text.trim spec = s.typeText) :
    Declaration.typeOfSpec spec = s.kind.valueType := by
  have hlowered : Text.asciiLower s.typeText =
      s.kind.word.toList ++ Text.asciiLower (parenthesized s.selector) := by
    rw [← h.keyword, typeText]
    exact List.map_append
  have hword : ∀ c ∈ s.kind.word.toList, (c.isAlpha || c == ' ') = true := by
    intro c hc
    rcases s.kind.of_mem_word hc with halpha | rfl
    · rw [halpha, Bool.true_or]
    · rfl
  have hbehind : (Text.asciiLower (parenthesized s.selector)).takeWhile
      (fun c => c.isAlpha || c == ' ') = [] := by
    cases s.selector with
    | none => rfl
    | some inside => exact List.takeWhile_cons_of_neg (by decide)
  rw [Declaration.typeOfSpec, hspec, hlowered, List.takeWhile_append_of_pos hword, hbehind,
    List.append_nil, Text.trim_eq_self_iff.mpr s.kind.isTrimmed_word, String.ofList_toList]
  cases s.kind <;> rfl

theorem exists_splitTopLevel_specification (h : s.IsCanonical) :
    ∃ first, Text.trim first = s.typeText ∧
      splitTopLevel ',' s.specification = first :: s.attributes := by
  have htype : Nesting.Uncut ',' s.typeText := h.uncut_typeText (by decide) (by decide)
  have hspace : Nesting.Uncut ',' [' '] := Nesting.uncut_singleton (by decide) (by decide)
  rw [specification, dimensionText, attributes]
  cases hdimension : s.dimension with
  | none =>
      refine ⟨s.typeText ++ [' '], ?_, ?_⟩
      · exact Text.trim_concat h.isTrimmed_typeText h.typeText_ne_nil (by decide)
      · exact splitTopLevel_eq_singleton (htype.append hspace).whole
  | some extents =>
      have hextents : Nesting.Uncut ',' (parenthesized (some extents)) :=
        uncut_parenthesized (fun t ht => (h.dimension t (by rw [hdimension]; exact ht)).1.nested)
          (by decide)
      have hword : Nesting.Uncut ',' "dimension".toList :=
        uncut_of_isDeclarationChar (List.all_eq_true.mp (by decide)) (by decide)
      have hattribute : Nesting.Uncut ','
          (' ' :: ("dimension".toList ++ parenthesized (some extents)) ++ [' ']) :=
        (hspace.append (hword.append hextents)).append hspace
      refine ⟨s.typeText, Text.trim_eq_self_iff.mpr h.isTrimmed_typeText, ?_⟩
      dsimp only
      rw [List.cons_append, splitTopLevel_append_cons htype (by decide),
        splitTopLevel_eq_singleton hattribute.whole]

theorem attributes_eq (h : s.IsCanonical) :
    s.attributes.any Declaration.isParameter = false ∧
      (s.attributes.findSome? Declaration.dimensionRank?).getD 0 = DeclaredEntity.rank s.dimension := by
  rw [attributes]
  cases hdimension : s.dimension with
  | none => exact ⟨rfl, rfl⟩
  | some extents =>
      have hextents := (h.dimension extents hdimension).1
      have htrim : Text.trim (' ' :: ("dimension".toList ++ parenthesized (some extents)) ++ [' ']) =
          "dimension".toList ++ parenthesized (some extents) := by
        have hword : Text.IsTrimmed "dimension".toList := by decide
        rw [List.cons_append, Text.trim_cons (by decide)]
        exact Text.trim_concat (hword.append isTrimmed_parenthesized) (by simp) (by decide)
      have hsplit : splitParenthesized? ("dimension".toList ++ parenthesized (some extents)) =
          some ("dimension".toList, extents) :=
        splitParenthesized?_append (by decide) hextents.nested hextents.isQuote_of_mem []
      have hparameter : Declaration.isParameter
          (' ' :: ("dimension".toList ++ parenthesized (some extents)) ++ [' ']) = false := by
        rw [Declaration.isParameter, htrim]
        rfl
      have hrank : Declaration.dimensionRank?
          (' ' :: ("dimension".toList ++ parenthesized (some extents)) ++ [' ']) =
            some (DeclaredEntity.rank (some extents)) := by
        rw [Declaration.dimensionRank?, htrim, hsplit, Option.map_some, rankOf_eq hextents.nested]
        rfl
      refine ⟨?_, ?_⟩
      · rw [List.any_cons, hparameter]
        rfl
      · rw [List.findSome?_cons, hrank]
        rfl

theorem contains_append_parenthesized {before : List Char} {t : Option (List Char)}
    (hbefore : Text.contains "::".toList before = false)
    (ht : ∀ l ∈ t, Text.contains "::".toList l = false) :
    Text.contains "::".toList (before ++ parenthesized t) = false := by
  cases t with
  | none =>
      rw [parenthesized, List.append_nil]
      exact hbefore
  | some inside =>
      rw [parenthesized, Text.contains_append_cons (by decide), hbefore,
        Text.contains_append_cons (by decide), ht inside rfl]
      rfl

theorem contains_typeText (h : s.IsCanonical) : Text.contains "::".toList s.typeText = false := by
  apply contains_append_parenthesized
  · apply Text.contains_eq_false_of_not_mem (c := ':') (by decide)
    intro hmem
    exact absurd (h.isDeclarationChar_keyword hmem) (by decide)
  · exact fun l hl => (h.selector l hl).2

theorem splitOnce?_append (h : s.IsCanonical) (rest : List Char) :
    Text.splitOnce? "::".toList (s.specification ++ ("::".toList ++ rest)) =
      some (s.specification, rest) := by
  apply Text.splitOnce?_append (by decide)
  have hcolon : "::".toList.dropLast = [':'] := by decide
  rw [hcolon, specification, dimensionText]
  cases hdimension : s.dimension with
  | none =>
      dsimp only
      rw [List.nil_append, List.append_assoc, List.singleton_append,
        Text.contains_append_cons (by decide), h.contains_typeText]
      rfl
  | some extents =>
      have hword : Text.contains "::".toList (' ' :: "dimension".toList) = false := rfl
      have hextents := contains_append_parenthesized hword
        fun l hl => (h.dimension l (by rw [hdimension]; exact hl)).2
      rw [List.cons_append] at hextents
      dsimp only
      rw [List.cons_append, List.append_assoc, List.cons_append, List.append_assoc,
        List.singleton_append, Text.contains_append_cons (by decide), h.contains_typeText,
        Text.contains_append_cons (by decide), hextents]
      rfl

/-- A statement gives back its entities with their type and their ranks, whatever blanks it ends in. -/
theorem ofStatement_eq (h : s.IsCanonical) (origin : String) (line : Nat) :
    DeclarationsDocument.ofStatement origin
        ⟨line, s.specification ++ ("::".toList ++ Text.trimEnd s.entityText)⟩ =
      { declarations := s.declarations line } := by
  obtain ⟨first, hfirst, hparts⟩ := h.exists_splitTopLevel_specification
  obtain ⟨hparameter, hrank⟩ := h.attributes_eq
  have htargets := DeclaredEntity.IsCanonical.filterMap_target? h.entities_ne h.entities
  rw [DeclarationsDocument.ofStatement]
  dsimp only
  rw [h.splitOnce?_append]
  dsimp only
  rw [hparts, List.headD_cons, List.tail_cons, h.typeOfSpec_eq hfirst, IntrinsicType.valueType_ne_unknown,
    hparameter, Bool.false_or, if_neg Bool.false_ne_true, hrank, entityText, htargets, List.map_map]
  have hentities : ∀ e ∈ s.entities,
      (DeclarationsDocument.ofTarget origin line s.kind.valueType (DeclaredEntity.rank s.dimension) ∘
        DeclaredEntity.target) e =
      { declarations := [e.declaration s.kind.valueType s.dimension line] } := by
    intro e he
    rw [Function.comp_apply, (h.entities e he).ofTarget_target]
  rw [List.map_congr_left hentities, DeclarationsDocument.foldr_append_map, declarations,
    List.map_eq_flatMap]

end TypeStatement.IsCanonical

end NamelistCatalog
