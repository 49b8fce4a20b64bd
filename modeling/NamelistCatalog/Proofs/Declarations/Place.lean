import NamelistCatalog.Proofs.Declarations.Statement

namespace NamelistCatalog

/-- A place for an entity in a declaration: the text in front of the double colon, the entities in front of
the comma before it, the blanks around it, and what stands behind these. -/
structure EntityPlace where
  specification : List Char
  earlier : Option (List Char) := none
  indent : List Char := []
  gap : List Char := []
  later : List Char := []

namespace EntityPlace

def earlierText (p : EntityPlace) : List Char :=
  match p.earlier with
  | none => []
  | some t => t ++ [',']

/-- The entities of the declaration when this text stands in the place. -/
def entities (p : EntityPlace) (entity : List Char) : List Char :=
  p.earlierText ++ (p.indent ++ (entity ++ (p.gap ++ p.later)))

def statement (p : EntityPlace) (entity : List Char) : List Char :=
  p.specification ++ ("::".toList ++ p.entities entity)

def parts (p : EntityPlace) : List (List Char) := splitTopLevel ',' p.specification

def valueType (p : EntityPlace) : ValueType := Declaration.typeOfSpec (p.parts.headD [])

/-- The rank of an entity without dimensions of its own. -/
def attributeRank (p : EntityPlace) : UInt8 :=
  (p.parts.tail.findSome? Declaration.dimensionRank?).getD 0

/-- The rank of an entity with this text behind its name. -/
def rank (p : EntityPlace) (tail : List Char) : UInt8 :=
  (Declaration.listRank? tail).getD p.attributeRank

/-- The initial value of what stands in the place, with its equals sign. -/
def valueText (p : EntityPlace) : List Char := (Nesting.cutFrom ',' {} p.later).1

/-- The parts between the commas that end before the place. -/
def partsBefore (p : EntityPlace) : List (List Char) :=
  match p.earlier with
  | none => []
  | some t => splitTopLevel ',' t

/-- The parts between the commas that start behind the place. -/
def partsBehind (p : EntityPlace) : List (List Char) := (Nesting.cutFrom ',' {} p.later).2

/-- The statement declares what stands in the place: the double colon is its first, its type is known and
its attributes make no constants, and the place lies between two commas outside quotes and brackets, in
front of the initial value. -/
structure IsOpen (p : EntityPlace) : Prop where
  colons : Text.contains "::".toList (p.specification ++ [':']) = false
  typed : p.valueType ≠ .unknown
  attributes : p.parts.tail.any Declaration.isParameter = false
  earlier : ∀ t ∈ p.earlier, t.foldl Nesting.next {} = {}
  indent : Text.isBlankText p.indent = true
  gap : Text.isBlankText p.gap = true
  later : ∀ c ∈ p.later.head?, c = ',' ∨ c = '='

end EntityPlace

namespace EntityPlace.IsOpen

variable {p : EntityPlace}

theorem head?_valueText (h : p.IsOpen) : ∀ c ∈ p.valueText.head?, c = '=' := by
  rw [EntityPlace.valueText]
  cases hlater : p.later with
  | nil => simp [Nesting.cutFrom]
  | cons c rest =>
      rcases h.later c (by rw [hlater]; rfl) with rfl | rfl
      · rw [Nesting.cutFrom_cons_of_isTop (by decide) rfl rfl]
        simp
      · rw [Nesting.cutFrom, if_neg (by decide)]
        intro c hc
        exact (Option.some.inj hc).symm

theorem splitTopLevel_later (h : p.IsOpen) {entity : List Char} (hentity : IsEntityText entity) :
    splitTopLevel ',' (p.indent ++ (entity ++ (p.gap ++ p.later))) =
      (p.indent ++ (entity ++ (p.gap ++ p.valueText))) :: p.partsBehind := by
  have huncut : Nesting.Uncut ',' (p.indent ++ (entity ++ p.gap)) :=
    hentity.uncut_surrounded h.indent h.gap (by decide) (by decide) (by decide)
  rw [← List.append_assoc entity, ← List.append_assoc p.indent, splitTopLevel,
    Nesting.cutFrom_append huncut.whole, huncut.closed, List.append_assoc, List.append_assoc]
  rfl

theorem splitTopLevel_entities (h : p.IsOpen) {entity : List Char} (hentity : IsEntityText entity) :
    splitTopLevel ',' (p.entities entity) =
      p.partsBefore ++ (p.indent ++ (entity ++ (p.gap ++ p.valueText))) :: p.partsBehind := by
  rw [EntityPlace.entities, EntityPlace.earlierText, EntityPlace.partsBefore]
  cases hearlier : p.earlier with
  | none => exact h.splitTopLevel_later hentity
  | some t =>
      dsimp only
      rw [List.append_assoc, List.singleton_append,
        splitTopLevel_append_sep (h.earlier t hearlier) (by decide), h.splitTopLevel_later hentity]

/-- The statement declares what it declares before and behind the place, whatever stands in it. -/
theorem exists_ofStatement_eq (h : p.IsOpen) (origin : String) (line : Nat) :
    ∃ front back : DeclarationsDocument, ∀ {entity}, IsEntityText entity → entity ≠ [] →
      DeclarationsDocument.ofStatement origin ⟨line, p.statement entity⟩ =
        front.append
          ((DeclarationsDocument.ofTarget origin line p.valueType p.attributeRank entity).append
            back) := by
  let documents (parts : List (List Char)) : List DeclarationsDocument :=
    (parts.filterMap Declaration.target?).map
      (DeclarationsDocument.ofTarget origin line p.valueType p.attributeRank)
  refine ⟨(documents p.partsBefore).foldr DeclarationsDocument.append {},
    (documents p.partsBehind).foldr DeclarationsDocument.append {}, ?_⟩
  intro entity hentity hne
  have htarget := hentity.target?_surrounded hne h.indent h.gap h.head?_valueText
  have htyped : (p.valueType == .unknown) = false := beq_eq_false_iff_ne.mpr h.typed
  have hsplit : Text.splitOnce? "::".toList (p.statement entity) =
      some (p.specification, p.entities entity) :=
    Text.splitOnce?_append (by decide) h.colons _
  rw [DeclarationsDocument.ofStatement]
  dsimp only
  rw [hsplit]
  dsimp only
  rw [← EntityPlace.parts, ← EntityPlace.valueType, ← EntityPlace.attributeRank, htyped, h.attributes,
    Bool.false_or, if_neg Bool.false_ne_true, h.splitTopLevel_entities hentity, List.filterMap_append,
    List.filterMap_cons_some htarget, List.map_append, DeclarationsDocument.foldr_append_append,
    List.map_cons, List.foldr_cons]

theorem endsSection_statement (h : p.IsOpen) (entity : List Char) :
    Declaration.endsSection (p.statement entity) = false :=
  Declaration.endsSection_eq_false h.typed (p.entities entity)

theorem exists_parse_eq (h : p.IsOpen) (origin : String) {name : String}
    (hname : Name.isValid name = true) {before : List CodeLine}
    (hbefore : ∀ s ∈ before, Declaration.endsSection s.text = false) (line : Nat)
    (after : List CodeLine) :
    ∃ front back : DeclarationsDocument, ∀ {text tail : List Char}, IsEntityTail tail →
      CodeLine.ofLines (Text.lines text) =
        before ++ ⟨line, p.statement (name.toList ++ tail)⟩ :: after →
      DeclarationsDocument.parse origin text = front.append (DeclarationsDocument.append
        { declarations := [{ name, valueType := p.valueType, dim := p.rank tail, line }] } back) := by
  obtain ⟨front, back, hstatement⟩ := h.exists_ofStatement_eq origin line
  let declared (statements : List CodeLine) : DeclarationsDocument :=
    (statements.map (DeclarationsDocument.ofStatement origin)).foldr DeclarationsDocument.append {}
  refine ⟨(declared before).append front,
    back.append (declared (after.takeWhile fun s => !Declaration.endsSection s.text)), ?_⟩
  intro text tail htail htext
  have hentity : IsEntityText (name.toList ++ tail) :=
    (isEntityText_name hname).append htail.toIsEntityText
  have hne : name.toList ++ tail ≠ [] :=
    List.append_ne_nil_of_left_ne_nil (Name.toList_ne_nil_of_isValid hname) tail
  have hgoes : ∀ s ∈ before, (!Declaration.endsSection s.text) = true := by
    intro s hs
    rw [hbefore s hs]
    rfl
  rw [DeclarationsDocument.parse, htext, List.takeWhile_append_of_pos hgoes,
    List.takeWhile_cons_of_pos (by rw [h.endsSection_statement]; rfl), List.map_append,
    DeclarationsDocument.foldr_append_append, List.map_cons, List.foldr_cons,
    hstatement hentity hne, htail.ofTarget_eq hname]
  simp only [DeclarationsDocument.append_assoc, declared, EntityPlace.rank]

end EntityPlace.IsOpen

end NamelistCatalog
