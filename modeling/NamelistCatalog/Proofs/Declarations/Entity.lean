import Mathlib.Tactic.MkIffOfInductiveProp
import NamelistCatalog.Proofs.Declarations
import NamelistCatalog.Proofs.Name
import NamelistCatalog.Proofs.Statement.Parentheses
import NamelistCatalog.Proofs.Statement.Splitting

namespace NamelistCatalog

/-- An entity of a declaration. -/
structure DeclaredEntity where
  name : String
  extents : Option (List Char) := none
  length : Option (List Char) := none
  init : Option (List Char) := none

def parenthesized : Option (List Char) → List Char
  | none => []
  | some inside => '(' :: (inside ++ [')'])

/-- What may stand in such parentheses. -/
@[mk_iff]
structure IsParenthesisList (t : List Char) : Prop where
  nested : IsNested t
  plain : t.all Line.isPlainChar = true

/-- What may stand behind the equals sign of an entity. -/
@[mk_iff]
structure IsInitialValue (t : List Char) : Prop where
  nested : IsNested t
  commas : Scope.commas {} t = 0
  code : Line.IsCode t
  feed : '\n' ∉ t

namespace DeclaredEntity

/-- The rank that a dimension list gives: the number of its extents, as far as ranks are told apart. -/
def rank : Option (List Char) → UInt8
  | none => 0
  | some extents => UInt8.ofNat (min (Scope.commas {} extents + 1) 255)

/-- What is declared of an entity by a statement of this type and with this dimension attribute. -/
def declaration (e : DeclaredEntity) (valueType : ValueType) (dimension : Option (List Char))
    (line : Nat) : Declaration :=
  { name := e.name, valueType, dim := rank (e.extents.or dimension), line }

def lengthText (e : DeclaredEntity) : List Char :=
  match e.length with
  | none => []
  | some digits => '*' :: digits

/-- The initial value behind its equals sign. -/
def initText (e : DeclaredEntity) : List Char :=
  match e.init with
  | none => []
  | some init => ' ' :: '=' :: ' ' :: init

def target (e : DeclaredEntity) : List Char :=
  e.name.toList ++ (parenthesized e.extents ++ e.lengthText)

/-- The entity as it stands behind a double colon or a comma. -/
def text (e : DeclaredEntity) : List Char := ' ' :: (e.target ++ e.initText)

@[mk_iff]
structure IsCanonical (e : DeclaredEntity) : Prop where
  name : Name.isValid e.name = true
  extents : ∀ t ∈ e.extents, IsParenthesisList t
  length : ∀ digits ∈ e.length, digits.all Char.isDigit = true
  init : ∀ t ∈ e.init, IsInitialValue t

end DeclaredEntity

instance (t : List Char) : Decidable (IsParenthesisList t) :=
  decidable_of_iff' _ (isParenthesisList_iff t)

instance (t : List Char) : Decidable (IsInitialValue t) := decidable_of_iff' _ (isInitialValue_iff t)

instance (e : DeclaredEntity) : Decidable e.IsCanonical := decidable_of_iff' _ e.isCanonical_iff

/-- The characters that stand outside parentheses and initial values, the commas and colons aside. -/
def isDeclarationChar (c : Char) : Bool := Name.isNameChar c || c == ' ' || c == '*'

theorem ne_of_isDeclarationChar {c d : Char} (hc : isDeclarationChar c = true)
    (hd : isDeclarationChar d = false) : c ≠ d := by
  rintro rfl
  rw [hc] at hd
  cases hd

theorem isDeclarationChar_of_isNameChar {c : Char} (hc : Name.isNameChar c = true) :
    isDeclarationChar c = true := by
  rw [isDeclarationChar, hc]
  rfl

theorem isMarker_of_isDeclarationChar {c : Char} (hc : isDeclarationChar c = true) :
    Nesting.isMarker c = false := Nesting.isMarker_of_any hc (by decide)

theorem isQuote_of_isDeclarationChar {c : Char} (hc : isDeclarationChar c = true) :
    isQuote c = false := by
  have hmarker := isMarker_of_isDeclarationChar hc
  rw [Nesting.isMarker, Bool.or_eq_false_iff, Bool.or_eq_false_iff] at hmarker
  exact hmarker.1.1

section Texts

variable {s : List Char} {t : Option (List Char)} {sep : Char}

theorem uncut_of_isDeclarationChar (h : ∀ c ∈ s, isDeclarationChar c = true)
    (hsep : isDeclarationChar sep = false) : Nesting.Uncut sep s :=
  Nesting.uncut_plain fun c hc =>
    ⟨isMarker_of_isDeclarationChar (h c hc), ne_of_isDeclarationChar (h c hc) hsep⟩

theorem uncut_of_isBlankText (h : Text.isBlankText s = true) (hsep : Text.isBlank sep = false) :
    Nesting.Uncut sep s := by
  apply Nesting.uncut_plain
  intro c hc
  have hblank : Text.isBlank c = true := List.all_eq_true.mp h c hc
  refine ⟨Nesting.isMarker_of_any hblank (by decide), ?_⟩
  rintro rfl
  rw [hblank] at hsep
  cases hsep

theorem uncut_parenthesized (h : ∀ l ∈ t, IsNested l) (hsep : Nesting.isMarker sep = false) :
    Nesting.Uncut sep (parenthesized t) := by
  cases t with
  | none => exact Nesting.uncut_nil
  | some inside => exact Nesting.uncut_parenthesized (h inside rfl) hsep

theorem isTrimmed_parenthesized : Text.IsTrimmed (parenthesized t) := by
  cases t with
  | none => exact Text.isTrimmed_of_forall (by simp [parenthesized])
  | some inside =>
      refine ⟨?_, ?_⟩
      · rintro c ⟨⟩
        decide
      · intro c hc
        rw [parenthesized, Text.getLast?_cons_right (by simp), List.getLast?_concat] at hc
        obtain rfl := Option.some.inj hc
        decide

theorem isPlainChar_of_mem_parenthesized (h : ∀ l ∈ t, IsParenthesisList l) {c : Char}
    (hc : c ∈ parenthesized t) : Line.isPlainChar c = true := by
  cases t with
  | none => cases hc
  | some inside =>
      rcases List.mem_cons.mp hc with rfl | hc
      · decide
      · rcases List.mem_append.mp hc with hc | hc
        · exact List.all_eq_true.mp (h inside rfl).plain c hc
        · rw [List.mem_singleton.mp hc]
          decide

theorem IsParenthesisList.isQuote_of_mem {l : List Char} (h : IsParenthesisList l) (c : Char)
    (hc : c ∈ l) : isQuote c = false :=
  (Line.isPlainChar_iff.mp (List.all_eq_true.mp h.plain c hc)).2.1

theorem isPlainChar_of_isDeclarationChar {c : Char} (hc : isDeclarationChar c = true) :
    Line.isPlainChar c = true :=
  Line.isPlainChar_iff.mpr ⟨ne_of_isDeclarationChar hc (by decide), isQuote_of_isDeclarationChar hc,
    ne_of_isDeclarationChar hc (by decide)⟩

end Texts

namespace Declaration

variable {s t : List Char} {name : String}

/-- The rank that the first list in parentheses gives, if there is one that is closed. -/
def listRank? (t : List Char) : Option UInt8 :=
  (splitParenthesized? t).map fun parts => rankOf parts.2

theorem listRank?_eq_none (h : '(' ∉ t) : listRank? t = none := by
  rw [listRank?, splitParenthesized?_eq_none h]
  rfl

theorem listRank?_append_left (hs : '(' ∉ s) (t : List Char) : listRank? (s ++ t) = listRank? t := by
  rw [listRank?, splitParenthesized?_append_left hs, Option.map_map]
  rfl

theorem listRank?_append_right {r : UInt8} (h : listRank? s = some r) (t : List Char) :
    listRank? (s ++ t) = some r := by
  obtain ⟨parts, hparts, rfl⟩ := Option.map_eq_some_iff.mp h
  rw [listRank?, splitParenthesized?_append_right hparts, Option.map_some]

theorem listRank?_parenthesized {inside : List Char} (hnested : IsNested inside)
    (hplain : ∀ c ∈ inside, isQuote c = false) (rest : List Char) :
    listRank? ('(' :: (inside ++ ')' :: rest)) = some (DeclaredEntity.rank (some inside)) := by
  have hsplit := splitParenthesized?_append (s := []) (by simp) hnested hplain rest
  rw [List.nil_append] at hsplit
  rw [listRank?, hsplit, Option.map_some, rankOf_eq hnested]
  rfl

theorem takeWhile_name_append (hname : Name.isValid name = true) (ht : ∀ c ∈ t.head?, c = '*') :
    (name.toList ++ t).takeWhile (· != '*') = name.toList := by
  have hstar : ∀ c ∈ name.toList, (c != '*') = true := by
    intro c hc
    rw [bne_iff_ne]
    exact Name.ne_of_isNameChar (Name.isNameChar_of_isValid hname hc) (by decide)
  apply Text.takeWhile_append_of_head? hstar
  intro c hc
  obtain rfl := ht c hc
  decide

/-- The name ends at the dimension list or at the length, and the rank is that of the first list in
parentheses, whichever of the two it belongs to. -/
theorem nameAndRank_append (hname : Name.isValid name = true)
    (ht : ∀ c ∈ t.head?, c = '*' ∨ c = '(' ∧ (listRank? t).isSome = true) (attributeRank : UInt8) :
    nameAndRank attributeRank (name.toList ++ t) =
      (name.toList, (listRank? t).getD attributeRank) := by
  have hparenthesis : '(' ∉ name.toList := fun hmem =>
    Name.ne_of_isNameChar (Name.isNameChar_of_isValid hname hmem) (by decide) rfl
  have htrimmed := Name.isTrimmed_of_isValid hname
  have htrim : Text.trim name.toList = name.toList := Text.trim_eq_self_iff.mpr htrimmed
  rw [nameAndRank, splitParenthesized?_append_left hparenthesis, listRank?]
  cases hsplit : splitParenthesized? t with
  | none =>
      have hstar : ∀ c ∈ t.head?, c = '*' := by
        intro c hc
        rcases ht c hc with hc | ⟨-, hlist⟩
        · exact hc
        · rw [listRank?, hsplit] at hlist
          cases hlist
      dsimp only [Option.map_none]
      rw [takeWhile_name_append hname hstar, htrim]
      rfl
  | some parts =>
      have hstar : ∀ c ∈ (Text.trimEnd parts.1).head?, c = '*' := by
        intro c hc
        rw [Option.mem_def, Text.trimEnd] at hc
        obtain ⟨blanks, hblanks⟩ := Text.dropEndWhile_isPrefix Text.isBlank parts.1
        have hfirst : (t.takeWhile (· != '(')).head? = some c := by
          rw [← fst_of_splitParenthesized? hsplit, ← hblanks, List.head?_append, hc, Option.some_or]
        rw [List.head?_takeWhile, Option.filter_eq_some_iff, bne_iff_ne] at hfirst
        exact (ht c hfirst.1).resolve_right fun hround => hfirst.2 hround.1
      dsimp only [Option.map_some]
      rw [htrimmed.trim_append (Name.toList_ne_nil_of_isValid hname), takeWhile_name_append hname hstar,
        htrim]
      rfl

end Declaration

/-- A dimension list, closed whether or not parentheses in quotes count. -/
@[mk_iff]
structure IsDimensionList (t : List Char) : Prop where
  nested : IsNested t
  closed : (Declaration.listRank? (parenthesized (some t))).isSome = true

instance (t : List Char) : Decidable (IsDimensionList t) := decidable_of_iff' _ (isDimensionList_iff t)

theorem IsParenthesisList.isDimensionList {l : List Char} (h : IsParenthesisList l) :
    IsDimensionList l := by
  refine ⟨h.nested, ?_⟩
  rw [parenthesized, Declaration.listRank?_parenthesized h.nested h.isQuote_of_mem]
  rfl

/-- A part of an entity, which is neither cut nor trimmed. -/
structure IsEntityText (t : List Char) : Prop where
  trimmed : Text.IsTrimmed t
  uncut : ∀ sep, isDeclarationChar sep = false → Nesting.isMarker sep = false → Nesting.Uncut sep t

/-- What may stand behind the name of an entity. -/
structure IsEntityTail (t : List Char) : Prop extends IsEntityText t where
  first : ∀ c ∈ t.head?, c = '*' ∨ c = '(' ∧ (Declaration.listRank? t).isSome = true

section Parts

variable {name : String} {extents : Option (List Char)} {s t : List Char}

theorem IsEntityText.append (hs : IsEntityText s) (ht : IsEntityText t) : IsEntityText (s ++ t) :=
  ⟨hs.trimmed.append ht.trimmed, fun sep hsep hmarker =>
    (hs.uncut sep hsep hmarker).append (ht.uncut sep hsep hmarker)⟩

theorem isEntityText_of_isDeclarationChar (h : ∀ c ∈ t, isDeclarationChar c = true)
    (htrimmed : Text.IsTrimmed t) : IsEntityText t :=
  ⟨htrimmed, fun _ hsep _ => uncut_of_isDeclarationChar h hsep⟩

theorem isEntityText_name (hname : Name.isValid name = true) : IsEntityText name.toList :=
  isEntityText_of_isDeclarationChar
    (fun _ hc => isDeclarationChar_of_isNameChar (Name.isNameChar_of_isValid hname hc))
    (Name.isTrimmed_of_isValid hname)

theorem isEntityText_parenthesized (h : ∀ l ∈ extents, IsNested l) :
    IsEntityText (parenthesized extents) :=
  ⟨isTrimmed_parenthesized, fun _ _ hmarker => uncut_parenthesized h hmarker⟩

theorem IsEntityTail.append (hs : IsEntityTail s) (ht : IsEntityTail t) : IsEntityTail (s ++ t) := by
  refine ⟨hs.toIsEntityText.append ht.toIsEntityText, ?_⟩
  cases s with
  | nil => exact ht.first
  | cons d rest =>
      intro c hc
      refine (hs.first c hc).imp_right ?_
      rintro ⟨hround, hlist⟩
      obtain ⟨r, hr⟩ := Option.isSome_iff_exists.mp hlist
      rw [Declaration.listRank?_append_right hr]
      exact ⟨hround, rfl⟩

theorem isEntityTail_parenthesized (h : ∀ l ∈ extents, IsDimensionList l) :
    IsEntityTail (parenthesized extents) := by
  refine ⟨isEntityText_parenthesized fun l hl => (h l hl).nested, ?_⟩
  intro c hc
  cases extents with
  | none => cases hc
  | some l => exact .inr ⟨(Option.some.inj hc).symm, (h l rfl).closed⟩

theorem isEntityTail_cons (ht : IsEntityText t) : IsEntityTail ('*' :: t) := by
  have hstar : IsEntityText ['*'] :=
    isEntityText_of_isDeclarationChar (List.all_eq_true.mp (by decide)) (by decide)
  refine ⟨hstar.append ht, ?_⟩
  intro c hc
  exact .inl (Option.some.inj hc).symm

theorem isDeclarationChar_of_mem_digits (h : t.all Char.isDigit = true) {c : Char}
    (hc : c ∈ '*' :: t) : isDeclarationChar c = true := by
  rcases List.mem_cons.mp hc with rfl | hc
  · decide
  · exact isDeclarationChar_of_isNameChar
      (Name.isNameChar_of_isDigit (List.all_eq_true.mp h c hc))

theorem isEntityTail_digits (h : t.all Char.isDigit = true) : IsEntityTail ('*' :: t) := by
  apply isEntityTail_cons
  apply isEntityText_of_isDeclarationChar
  · exact fun c hc => isDeclarationChar_of_mem_digits h (List.mem_cons_of_mem '*' hc)
  · exact Text.isTrimmed_of_forall fun c hc =>
      Name.isBlank_of_isNameChar (Name.isNameChar_of_isDigit (List.all_eq_true.mp h c hc))

theorem IsEntityTail.ofTarget_eq (ht : IsEntityTail t) (hname : Name.isValid name = true)
    (origin : String) (line : Nat) (valueType : ValueType) (attributeRank : UInt8) :
    DeclarationsDocument.ofTarget origin line valueType attributeRank (name.toList ++ t) =
      { declarations :=
          [{ name, valueType, dim := (Declaration.listRank? t).getD attributeRank, line }] } := by
  rw [DeclarationsDocument.ofTarget, Declaration.nameAndRank_append hname ht.first]
  dsimp only
  rw [String.ofList_toList, if_pos hname]

end Parts

section Places

variable {indent entity gap last : List Char} {sep : Char}

theorem IsEntityText.uncut_surrounded (h : IsEntityText entity) (hindent : Text.isBlankText indent = true)
    (hgap : Text.isBlankText gap = true) (hblank : Text.isBlank sep = false)
    (hsep : isDeclarationChar sep = false) (hmarker : Nesting.isMarker sep = false) :
    Nesting.Uncut sep (indent ++ (entity ++ gap)) :=
  (uncut_of_isBlankText hindent hblank).append
    ((h.uncut sep hsep hmarker).append (uncut_of_isBlankText hgap hblank))

theorem IsEntityText.target?_surrounded (h : IsEntityText entity) (hne : entity ≠ [])
    (hindent : Text.isBlankText indent = true) (hgap : Text.isBlankText gap = true)
    (hlast : ∀ c ∈ last.head?, c = '=') :
    Declaration.target? (indent ++ (entity ++ (gap ++ last))) = some entity := by
  have huncut : Nesting.Uncut '=' (indent ++ (entity ++ gap)) :=
    h.uncut_surrounded hindent hgap (by decide) (by decide) (by decide)
  have hvalue : (Nesting.cutFrom '=' {} last).1 = [] := by
    cases last with
    | nil => rfl
    | cons c rest => rw [Nesting.cutFrom_cons_of_isTop (by decide) rfl (hlast c rfl)]
  have hfirst : (splitTopLevel '=' (indent ++ (entity ++ (gap ++ last)))).headD [] =
      indent ++ (entity ++ gap) := by
    rw [← List.append_assoc entity, ← List.append_assoc indent, splitTopLevel,
      Nesting.cutFrom_append huncut.whole, huncut.closed, hvalue, List.append_nil]
    rfl
  rw [Declaration.target?, hfirst, Text.trim_surrounded hindent h.trimmed hne hgap,
    List.isEmpty_eq_false_iff.mpr hne]
  rfl

end Places

namespace DeclaredEntity.IsCanonical

variable {e : DeclaredEntity} {sep : Char}

theorem isEntityTail (h : e.IsCanonical) : IsEntityTail (parenthesized e.extents ++ e.lengthText) := by
  refine (isEntityTail_parenthesized fun t ht => (h.extents t ht).isDimensionList).append ?_
  unfold lengthText
  cases hlength : e.length with
  | none => exact @isEntityTail_parenthesized none (by simp)
  | some digits => exact isEntityTail_digits (h.length digits hlength)

theorem isEntityText_target (h : e.IsCanonical) : IsEntityText e.target :=
  (isEntityText_name h.name).append h.isEntityTail.toIsEntityText

theorem isDeclarationChar_lengthText (h : e.IsCanonical) {c : Char} (hc : c ∈ e.lengthText) :
    isDeclarationChar c = true := by
  unfold lengthText at hc
  cases hlength : e.length with
  | none =>
      rw [hlength] at hc
      cases hc
  | some digits =>
      rw [hlength] at hc
      exact isDeclarationChar_of_mem_digits (h.length digits hlength) hc

theorem target_ne_nil (h : e.IsCanonical) : e.target ≠ [] := by
  rw [target]
  exact List.append_ne_nil_of_left_ne_nil (Name.toList_ne_nil_of_isValid h.name) _

theorem uncut_text (h : e.IsCanonical) : Nesting.Uncut ',' e.text := by
  have hspace : Nesting.Uncut ',' [' '] := Nesting.uncut_singleton (by decide) (by decide)
  have hinit : Nesting.Uncut ',' e.initText := by
    unfold initText
    cases hvalue : e.init with
    | none => exact Nesting.uncut_nil
    | some init =>
        have hvalue := h.init init hvalue
        have hequals : Nesting.Uncut ',' [' ', '=', ' '] :=
          hspace.append ((Nesting.uncut_singleton (by decide) (by decide)).append hspace)
        exact hequals.append (Nesting.uncut_of_commas hvalue.nested hvalue.commas)
  exact hspace.append ((h.isEntityText_target.uncut ',' (by decide) (by decide)).append hinit)

theorem listRank?_tail (h : e.IsCanonical) :
    Declaration.listRank? (parenthesized e.extents ++ e.lengthText) =
      e.extents.map fun t => DeclaredEntity.rank (some t) := by
  cases hextents : e.extents with
  | none =>
      exact Declaration.listRank?_eq_none fun hmem =>
        absurd (h.isDeclarationChar_lengthText hmem) (by decide)
  | some inside =>
      have hinside := h.extents inside hextents
      have hlist := Declaration.listRank?_parenthesized hinside.nested hinside.isQuote_of_mem e.lengthText
      rw [parenthesized, List.cons_append, List.append_assoc, List.singleton_append, hlist,
        Option.map_some]

theorem target?_append (h : e.IsCanonical) {tail : List Char}
    (htail : tail = [] ∨ ∃ value, tail = ' ' :: '=' :: value) :
    Declaration.target? (' ' :: (e.target ++ tail)) = some e.target := by
  have hblank : Text.isBlankText [' '] = true := by decide
  rcases htail with rfl | ⟨value, rfl⟩
  · exact @IsEntityText.target?_surrounded [' '] e.target [] [] h.isEntityText_target h.target_ne_nil
      hblank rfl (by simp)
  · refine @IsEntityText.target?_surrounded [' '] e.target [' '] ('=' :: value) h.isEntityText_target
      h.target_ne_nil hblank hblank ?_
    intro c hc
    exact (Option.some.inj hc).symm

theorem trimEnd_text (h : e.IsCanonical) :
    Text.trimEnd e.text = ' ' :: (e.target ++ Text.trimEnd e.initText) := by
  have hlast : ∀ c ∈ (' ' :: e.target).getLast?, Text.isBlank c = false := by
    rw [Text.getLast?_cons_right h.target_ne_nil]
    exact h.isEntityText_target.trimmed.2
  exact Text.trimEnd_append (List.cons_ne_nil ' ' e.target) hlast e.initText

theorem initText_eq (e : DeclaredEntity) :
    e.initText = [] ∨ ∃ value, e.initText = ' ' :: '=' :: value := by
  unfold initText
  cases e.init with
  | none => exact .inl rfl
  | some init => exact .inr ⟨_, rfl⟩

theorem trimEnd_initText_eq (e : DeclaredEntity) :
    Text.trimEnd e.initText = [] ∨ ∃ value, Text.trimEnd e.initText = ' ' :: '=' :: value := by
  rcases initText_eq e with h | ⟨value, h⟩
  · exact .inl (by rw [h]; rfl)
  · refine .inr ⟨Text.trimEnd value, ?_⟩
    rw [h]
    exact Text.trimEnd_append_cons (by decide) [' '] value

theorem whole_trimEnd_text (h : e.IsCanonical) :
    (Nesting.cutFrom ',' {} (Text.trimEnd e.text)).2 = [] := by
  obtain ⟨rest, hrest⟩ := Text.dropEndWhile_isPrefix Text.isBlank e.text
  have hwhole := h.uncut_text.whole
  rw [← hrest] at hwhole
  exact Nesting.cuts_eq_nil_of_append hwhole

theorem filterMap_target? {es : List DeclaredEntity} (hne : es ≠ [])
    (h : ∀ e ∈ es, e.IsCanonical) :
    (splitTopLevel ',' (Text.trimEnd (Text.joinWith [','] (es.map text)))).filterMap
      Declaration.target? = es.map target := by
  induction es with
  | nil => cases hne rfl
  | cons e rest ih =>
      rw [List.forall_mem_cons] at h
      cases rest with
      | nil =>
          rw [List.map_singleton, Text.joinWith, splitTopLevel_eq_singleton h.1.whole_trimEnd_text,
            h.1.trimEnd_text, List.filterMap_cons_some (h.1.target?_append (trimEnd_initText_eq e))]
          rfl
      | cons next more =>
          have hfirst : Declaration.target? e.text = some e.target :=
            h.1.target?_append (initText_eq e)
          have hmore := ih (by simp) h.2
          rw [List.map_cons, List.map_cons, Text.joinWith, ← List.map_cons, List.append_assoc,
            List.singleton_append, Text.trimEnd_append_cons (by decide),
            splitTopLevel_append_cons h.1.uncut_text (by decide), List.filterMap_cons_some hfirst,
            hmore]
          rfl

theorem ofTarget_target (h : e.IsCanonical) (origin : String) (line : Nat) (valueType : ValueType)
    (dimension : Option (List Char)) :
    DeclarationsDocument.ofTarget origin line valueType (DeclaredEntity.rank dimension) e.target =
      { declarations := [e.declaration valueType dimension line] } := by
  rw [target, h.isEntityTail.ofTarget_eq h.name, h.listRank?_tail, declaration]
  cases e.extents <;> rfl

theorem isPlainChar_of_mem_target (h : e.IsCanonical) {c : Char} (hc : c ∈ e.target) :
    Line.isPlainChar c = true := by
  rcases List.mem_append.mp hc with hc | hc
  · have hname := Name.isNameChar_of_isValid h.name hc
    exact isPlainChar_of_isDeclarationChar (isDeclarationChar_of_isNameChar hname)
  · rcases List.mem_append.mp hc with hc | hc
    · exact isPlainChar_of_mem_parenthesized h.extents hc
    · exact isPlainChar_of_isDeclarationChar (h.isDeclarationChar_lengthText hc)

theorem isClosedCode_initText (h : e.IsCanonical) : Line.IsClosedCode e.initText := by
  unfold initText
  cases hvalue : e.init with
  | none => exact Line.isClosedCode_plain (by simp)
  | some init =>
      have hvalue := h.init init hvalue
      have hequals : Line.IsClosedCode [' ', '=', ' '] := Line.isClosedCode_of_all (by decide)
      exact hequals.append ⟨hvalue.code, Scope.foldl_nextQuote hvalue.nested⟩

theorem isClosedCode_text (h : e.IsCanonical) : Line.IsClosedCode e.text := by
  have hspace : Line.IsClosedCode [' '] := Line.isClosedCode_of_all (by decide)
  have htarget : Line.IsClosedCode e.target :=
    Line.isClosedCode_plain fun _ hc => h.isPlainChar_of_mem_target hc
  exact hspace.append (htarget.append h.isClosedCode_initText)

theorem newline_not_mem_text (h : e.IsCanonical) : '\n' ∉ e.text := by
  intro hmem
  rcases List.mem_cons.mp hmem with hmem | hmem
  · cases hmem
  · rcases List.mem_append.mp hmem with hmem | hmem
    · exact absurd (h.isPlainChar_of_mem_target hmem) (by decide)
    · unfold initText at hmem
      cases hvalue : e.init with
      | none =>
          rw [hvalue] at hmem
          cases hmem
      | some init =>
          rw [hvalue] at hmem
          have hfeed := (h.init init hvalue).feed
          simp [hfeed] at hmem

end DeclaredEntity.IsCanonical

end NamelistCatalog
