import NamelistCatalog.Defaults
import NamelistCatalog.Proofs.Name
import NamelistCatalog.Proofs.Statement.Line

/-!
Which comments are headings. A comment offers a title after three hashes, or, where the next line is made
of tildes, as a whole. It is a heading when the title is a name, alone or in front of an opening
parenthesis. What follows the parenthesis is not looked at, so that a sentence which starts like an
indexed name is a heading, too.
-/

namespace NamelistCatalog

/-- A text from an opening parenthesis to the one that closes it. -/
def IsGroup (s : List Char) : Prop :=
  ∃ inside, s = '(' :: (inside ++ [')']) ∧ inside.count '(' = inside.count ')' ∧
    ∀ start, start <+: inside → start.count ')' ≤ start.count '('

theorem IsGroup.getLast?_eq {s : List Char} (h : IsGroup s) : s.getLast? = some ')' := by
  obtain ⟨inside, rfl, -⟩ := h
  rw [← List.cons_append, List.getLast?_concat]

/-- A comment of nothing but tildes, three or more of them. -/
def Line.IsTildes (line : Line) : Prop :=
  ∃ marks gap tildes, Text.trim line = List.replicate (marks + 1) '!' ++
    (gap ++ List.replicate tildes '~') ∧ Text.isBlankText gap = true ∧ 3 ≤ tildes

namespace DocHeader

/-- The titles that a comment offers, and whether it takes the next line to do so. -/
inductive Offers (body : List Char) (next : Option Line) : List Char → Bool → Prop
  | hashes {text : List Char} (h : Text.trim body = ['#', '#', '#'] ++ text) :
      Offers body next (Text.trim text) false
  | underlined {line : Line} (hnext : next = some line) (hline : line.IsTildes) :
      Offers body next (Text.trim body) true

/-- The title is an identifier and, after any blanks, a text that may follow one; the name is the
identifier, folded. -/
def Names (mayFollow : List Char → Prop) (title : List Char) (name : String) : Prop :=
  ∃ identifier gap tail, title = identifier.toList ++ (gap ++ tail) ∧
    Name.isValid identifier = true ∧ Text.isBlankText gap = true ∧ mayFollow tail ∧
    name = Name.fold identifier

/-- A comment is a heading if a title that it offers names a parameter. -/
def Heads (mayFollow : List Char → Prop) (body : List Char) (next : Option Line) (h : DocHeader) :
    Prop :=
  ∃ title, Offers body next title h.underlined ∧ Names mayFollow title h.name

/-- Nothing, or anything after an opening parenthesis. -/
def OpensOrEnds (tail : List Char) : Prop := tail = [] ∨ tail.head? = some '('

/-- Nothing, or a parenthesis and what it encloses. -/
def IsGroupOrNothing (tail : List Char) : Prop := tail = [] ∨ IsGroup tail

section Titles

variable {title : List Char} {name : String} {mayFollow : List Char → Prop}

theorem Names.imp {mayFollow' : List Char → Prop} (h : Names mayFollow title name)
    (himp : ∀ tail, mayFollow tail → mayFollow' tail) : Names mayFollow' title name := by
  obtain ⟨identifier, gap, tail, htitle, hvalid, hgap, htail, hname⟩ := h
  exact ⟨identifier, gap, tail, htitle, hvalid, hgap, himp tail htail, hname⟩

theorem OpensOrEnds.of_isGroupOrNothing {tail : List Char} (h : IsGroupOrNothing tail) :
    OpensOrEnds tail := by
  rcases h with h | ⟨inside, rfl, -⟩
  · exact .inl h
  · exact .inr rfl

theorem ne_parenthesis_of_isValid {identifier : String} (h : Name.isValid identifier = true) :
    ∀ c ∈ identifier.toList, c ≠ '(' := fun _ hc =>
  Name.ne_of_isNameChar (Name.isNameChar_of_isValid h hc) (by decide)

theorem ne_parenthesis_of_isBlankText {gap : List Char} (h : Text.isBlankText gap = true) :
    ∀ c ∈ gap, c ≠ '(' := by
  intro c hc hopen
  have hblank := List.all_eq_true.mp h c hc
  rw [hopen] at hblank
  cases hblank

theorem dropWhile_title {identifier : String} {gap tail : List Char}
    (hvalid : Name.isValid identifier = true) (hgap : Text.isBlankText gap = true)
    (htail : OpensOrEnds tail) :
    (identifier.toList ++ (gap ++ tail)).dropWhile (· != '(') = tail := by
  rw [← List.append_assoc]
  apply Text.dropWhile_append_of_head?
  · intro c hc
    rw [bne_iff_ne]
    rcases List.mem_append.mp hc with hc | hc
    · exact ne_parenthesis_of_isValid hvalid c hc
    · exact ne_parenthesis_of_isBlankText hgap c hc
  · rcases htail with rfl | htail
    · rintro c ⟨⟩
    · rw [htail]
      rintro c ⟨⟩
      rfl

/-- The text after a name has to be checked to its end for a title to be a name and a group. -/
theorem names_isGroupOrNothing_iff :
    Names IsGroupOrNothing title name ↔
      Names OpensOrEnds title name ∧ IsGroupOrNothing (title.dropWhile (· != '(')) := by
  constructor
  · intro h
    refine ⟨h.imp fun _ => OpensOrEnds.of_isGroupOrNothing, ?_⟩
    obtain ⟨identifier, gap, tail, rfl, hvalid, hgap, htail, -⟩ := h
    rw [dropWhile_title hvalid hgap (.of_isGroupOrNothing htail)]
    exact htail
  · rintro ⟨⟨identifier, gap, tail, rfl, hvalid, hgap, htail, hname⟩, hgroup⟩
    rw [dropWhile_title hvalid hgap htail] at hgroup
    exact ⟨identifier, gap, tail, rfl, hvalid, hgap, hgroup, hname⟩

theorem not_names_hashes {text : List Char} : ¬Names mayFollow (['#', '#', '#'] ++ text) name := by
  rintro ⟨identifier, gap, tail, htitle, hvalid, -⟩
  obtain ⟨c, rest, hidentifier⟩ :=
    List.exists_cons_of_ne_nil (Name.toList_ne_nil_of_isValid hvalid)
  rw [hidentifier] at htitle
  obtain ⟨rfl, -⟩ := List.cons.inj htitle
  have hchar := Name.isNameChar_of_isValid hvalid (hidentifier ▸ List.mem_cons_self)
  cases hchar

/-- A character that ends the name of a title. -/
abbrev endsName (c : Char) : Bool := c == '(' || Text.isBlank c

theorem nameOf?_eq_some_iff_takeWhile :
    nameOf? title = some name ↔
      Name.isValid (String.ofList (title.takeWhile fun c => !endsName c)) = true ∧
        OpensOrEnds (Text.trimStart (title.dropWhile fun c => !endsName c)) ∧
        Name.fold (String.ofList (title.takeWhile fun c => !endsName c)) = name := by
  rw [nameOf?]
  dsimp only
  rw [Option.ite_none_right_eq_some, Bool.and_eq_true, Bool.or_eq_true, List.isEmpty_iff, beq_iff_eq,
    Option.some_inj, and_assoc, OpensOrEnds]

theorem nameOf?_eq_some_iff : nameOf? title = some name ↔ Names OpensOrEnds title name := by
  rw [nameOf?_eq_some_iff_takeWhile]
  constructor
  · rintro ⟨hvalid, htail, hname⟩
    refine ⟨_, (title.dropWhile fun c => !endsName c).takeWhile Text.isBlank, _, ?_, hvalid,
      List.all_takeWhile, htail, hname.symm⟩
    rw [Text.trimStart, List.takeWhile_append_dropWhile, String.toList_ofList,
      List.takeWhile_append_dropWhile]
  · rintro ⟨identifier, gap, tail, rfl, hvalid, hgap, htail, rfl⟩
    have hplain : ∀ c ∈ identifier.toList, (!endsName c) = true := by
      intro c hc
      have hblank := Name.isBlank_of_isNameChar (Name.isNameChar_of_isValid hvalid hc)
      simp [endsName, ne_parenthesis_of_isValid hvalid c hc, hblank]
    have hends : ∀ c ∈ (gap ++ tail).head?, (!endsName c) = false := by
      intro c hc
      cases gap with
      | nil =>
          rcases htail with rfl | htail
          · cases hc
          · rw [List.nil_append, htail] at hc
            obtain rfl := Option.some.inj hc
            rfl
      | cons d gap =>
          obtain rfl := Option.some.inj hc
          simp [endsName, List.all_eq_true.mp hgap d List.mem_cons_self]
    have hstart : Text.trimStart tail = tail := by
      apply Text.dropWhile_eq_self
      rcases htail with rfl | htail
      · rintro c ⟨⟩
      · rw [htail]
        rintro c ⟨⟩
        rfl
    rw [Text.takeWhile_append_of_head? hplain hends, Text.dropWhile_append_of_head? hplain hends,
      String.ofList_toList, Text.trimStart_append_of_blank hgap, hstart]
    exact ⟨hvalid, htail, rfl⟩

end Titles

section Comments

variable {body : List Char} {next : Option Line} {h : DocHeader}

theorem isTildes_of_isUnderline {line : Line} (h : isUnderline line = true) : line.IsTildes := by
  rw [isUnderline] at h
  split at h
  · cases h
  · rename_i body hbody
    obtain ⟨marks, htrim, -⟩ := Line.commentBody?_eq_some_iff.mp hbody
    dsimp only at h
    rw [Bool.and_eq_true, decide_eq_true_iff, List.all_eq_true] at h
    obtain ⟨hlength, htildes⟩ := h
    have hmark : Text.trim body = List.replicate (Text.trim body).length '~' :=
      List.eq_replicate_of_mem fun c hc => beq_iff_eq.mp (htildes c hc)
    -- The line ends where its text does, so there are no blanks behind the tildes.
    have hend : Text.trimEnd body = body := by
      apply Text.dropEndWhile_eq_self
      intro c hc
      apply (Text.isTrimmed_trim line).2
      rw [Option.mem_def] at hc ⊢
      rw [htrim, List.getLast?_append, hc, Option.some_or]
    refine ⟨marks, body.takeWhile Text.isBlank, (Text.trim body).length, ?_, List.all_takeWhile,
      hlength⟩
    rw [htrim, ← hmark, ← Text.trimStart_trimEnd, hend, Text.trimStart,
      List.takeWhile_append_dropWhile]

theorem isUnderline_iff {line : Line} : isUnderline line = true ↔ line.IsTildes := by
  refine ⟨isTildes_of_isUnderline, ?_⟩
  rintro ⟨marks, gap, tildes, htrim, hgap, htildes⟩
  have hplain : ∀ c ∈ List.replicate tildes '~', Text.isBlank c = false := by
    intro c hc
    rw [List.eq_of_mem_replicate hc]
    decide
  have hmark : (gap ++ List.replicate tildes '~').head? ≠ some '!' := by
    intro hfirst
    rcases List.mem_append.mp (List.mem_of_mem_head? hfirst) with hc | hc
    · cases List.all_eq_true.mp hgap _ hc
    · cases List.eq_of_mem_replicate hc
  have htext : Text.trim (gap ++ List.replicate tildes '~') = List.replicate tildes '~' :=
    Text.trim_indented hgap (Text.isTrimmed_of_forall hplain)
  rw [isUnderline, Line.commentBody?_eq_some_iff.mpr ⟨marks, htrim, hmark⟩]
  dsimp only
  rw [htext, List.length_replicate, List.all_replicate]
  simp [htildes]

theorem Offers.unique {title title' : List Char} {underlined : Bool}
    (h : Offers body next title underlined) (h' : Offers body next title' underlined) :
    title = title' := by
  cases h with
  | hashes htext =>
      cases h' with
      | hashes htext' =>
          exact congrArg Text.trim (List.append_cancel_left (htext.symm.trans htext'))
  | underlined _ _ =>
      cases h' with
      | underlined _ _ => rfl

theorem ofComment?_eq_some_iff_of_hashes {text : List Char}
    (hbody : Text.trim body = ['#', '#', '#'] ++ text) :
    ofComment? body next = some h ↔ Heads OpensOrEnds body next h := by
  rw [ofComment?, hbody, Text.dropStart?_append]
  dsimp only
  rw [Option.map_eq_some_iff]
  constructor
  · rintro ⟨name, hname, rfl⟩
    exact ⟨Text.trim text, .hashes hbody, nameOf?_eq_some_iff.mp hname⟩
  · rintro ⟨title, hoffers, hnames⟩
    obtain ⟨name, underlined⟩ := h
    cases hoffers with
    | hashes htext =>
        obtain rfl := List.append_cancel_left (hbody.symm.trans htext)
        exact ⟨name, nameOf?_eq_some_iff.mpr hnames, rfl⟩
    | underlined _ _ =>
        rw [hbody] at hnames
        exact absurd hnames not_names_hashes

theorem ofComment?_eq_some_iff_of_not_hashes (hbody : ¬['#', '#', '#'] <+: Text.trim body) :
    ofComment? body next = some h ↔ Heads OpensOrEnds body next h := by
  have hcut : Text.dropStart? ['#', '#', '#'] (Text.trim body) = none := by
    rw [Text.dropStart?, if_neg]
    rw [List.isPrefixOf_iff_prefix]
    exact hbody
  rw [ofComment?, hcut]
  dsimp only
  rw [Option.ite_none_right_eq_some, Option.map_eq_some_iff]
  constructor
  · rintro ⟨hunderline, name, hname, rfl⟩
    obtain ⟨line, rfl, hline⟩ := (Option.any_eq_true _ _).mp hunderline
    exact ⟨Text.trim body, .underlined rfl (isUnderline_iff.mp hline), nameOf?_eq_some_iff.mp hname⟩
  · rintro ⟨title, hoffers, hnames⟩
    obtain ⟨name, underlined⟩ := h
    cases hoffers with
    | hashes htext => exact absurd ⟨_, htext.symm⟩ hbody
    | underlined hnext hline =>
        subst hnext
        exact ⟨isUnderline_iff.mpr hline, name, nameOf?_eq_some_iff.mpr hnames, rfl⟩

theorem ofComment?_eq_some_iff : ofComment? body next = some h ↔ Heads OpensOrEnds body next h := by
  by_cases hbody : ['#', '#', '#'] <+: Text.trim body
  · obtain ⟨text, htext⟩ := hbody
    exact ofComment?_eq_some_iff_of_hashes htext.symm
  · exact ofComment?_eq_some_iff_of_not_hashes hbody

/-- The headings that are a name and at most one group are those whose title ends with the group. -/
theorem heads_isGroupOrNothing_iff :
    Heads IsGroupOrNothing body next h ↔
      ofComment? body next = some h ∧ ∃ title, Offers body next title h.underlined ∧
        IsGroupOrNothing (title.dropWhile (· != '(')) := by
  rw [ofComment?_eq_some_iff]
  constructor
  · rintro ⟨title, hoffers, hnames⟩
    obtain ⟨hopens, hgroup⟩ := names_isGroupOrNothing_iff.mp hnames
    exact ⟨⟨title, hoffers, hopens⟩, title, hoffers, hgroup⟩
  · rintro ⟨⟨title, hoffers, hopens⟩, title', hoffers', hgroup⟩
    obtain rfl := hoffers.unique hoffers'
    exact ⟨title, hoffers, names_isGroupOrNothing_iff.mpr ⟨hopens, hgroup⟩⟩

theorem map_docEvent_ofLinesFrom {number : Nat} {line : Line} {rest : List Line}
    (hcomment : line.commentBody? = some body) (htext : ofComment? body rest.head? = none)
    (hhash : (Text.trimStart body).head? ≠ some '#') :
    (DefaultsItem.ofLinesFrom number (line :: rest)).map DefaultsItem.docEvent =
      .line body :: (DefaultsItem.ofLinesFrom (number + 1) rest).map DefaultsItem.docEvent := by
  have hblank : ¬Text.isBlankText line = true := by
    intro hblank
    rw [Line.commentBody?, Text.trimStart_eq_nil hblank] at hcomment
    cases hcomment
  rw [DefaultsItem.ofLinesFrom, if_neg hblank, hcomment]
  dsimp only
  rw [htext]
  dsimp only
  rw [if_neg (by rw [beq_iff_eq]; exact hhash), List.map_cons, DefaultsItem.docEvent]

/-- A comment is a heading exactly when a title that it offers is a name, alone or in front of a
parenthesis. Nothing is asked of the text behind that parenthesis: a title is a name and at most one group
only where all of it from the parenthesis on is a group. A comment that is no heading is documentation,
unless it starts with a hash. -/
theorem recognises_titles (body : List Char) (next : Option Line) (h : DocHeader) :
    (ofComment? body next = some h ↔ Heads OpensOrEnds body next h) ∧
      (Heads IsGroupOrNothing body next h ↔
        ofComment? body next = some h ∧ ∃ title, Offers body next title h.underlined ∧
          IsGroupOrNothing (title.dropWhile (· != '('))) ∧
      ∀ (number : Nat) (line : Line) (rest : List Line),
        line.commentBody? = some body → rest.head? = next → ofComment? body next = none →
          (Text.trimStart body).head? ≠ some '#' →
            (DefaultsItem.ofLinesFrom number (line :: rest)).map DefaultsItem.docEvent =
              .line body ::
                (DefaultsItem.ofLinesFrom (number + 1) rest).map DefaultsItem.docEvent := by
  refine ⟨ofComment?_eq_some_iff, heads_isGroupOrNothing_iff, ?_⟩
  rintro number line rest hcomment rfl htext hhash
  exact map_docEvent_ofLinesFrom hcomment htext hhash

theorem recognises_titles_prose :
    Line.commentBody? "! sets b".toList = some " sets b".toList ∧
      ["a = 1".toList].head? = some "a = 1".toList ∧
      ofComment? " sets b".toList (some "a = 1".toList) = none ∧
      (Text.trimStart " sets b".toList).head? ≠ some '#' ∧
      (DefaultsItem.ofLinesFrom 1 ["! sets b".toList, "a = 1".toList]).map DefaultsItem.docEvent =
        .line " sets b".toList ::
          (DefaultsItem.ofLinesFrom 2 ["a = 1".toList]).map DefaultsItem.docEvent := by
  have hcomment : Line.commentBody? "! sets b".toList = some " sets b".toList := by decide
  have hnext : ["a = 1".toList].head? = some "a = 1".toList := rfl
  have htext : ofComment? " sets b".toList (some "a = 1".toList) = none := by decide
  have hhash : (Text.trimStart " sets b".toList).head? ≠ some '#' := by decide
  obtain ⟨-, -, hline⟩ := recognises_titles " sets b".toList (some "a = 1".toList) ⟨"b", false⟩
  exact ⟨hcomment, hnext, htext, hhash, hline 1 _ _ hcomment hnext htext hhash⟩

/-- A sentence that starts like an indexed name is taken for a heading. -/
theorem not_forall_heads_isGroup :
    ¬∀ body next h, ofComment? body next = some h → Heads IsGroupOrNothing body next h := by
  intro hall
  have hheading : ofComment? " b(1) sets the scale".toList (some "! ~~~~".toList) =
      some ⟨"b", true⟩ := by decide +kernel
  obtain ⟨-, title, hoffers, hgroup⟩ := heads_isGroupOrNothing_iff.mp (hall _ _ _ hheading)
  cases hoffers with
  | underlined hnext hline =>
      rcases hgroup with hnil | hgroup
      · revert hnil
        decide
      · have hlast := hgroup.getLast?_eq
        revert hlast
        decide

end Comments

end DocHeader

end NamelistCatalog
