import NamelistCatalog.Proofs.Text.Paragraphs
import NamelistCatalog.Proofs.Text.Words
import NamelistCatalog.Summary
import NamelistCatalog.Validation

namespace NamelistCatalog

namespace Summary

/-- The sentence is the start of a line up to the first period that a space follows, and the whole line if
there is no such period. -/
inductive IsFirstSentence : List Char → List Char → Prop where
  | stop {front after : List Char} (hfirst : ¬['.', ' '] <:+: front ++ ['.']) :
      IsFirstSentence (front ++ '.' :: ' ' :: after) (front ++ ['.'])
  | whole {line : List Char} (hnone : ¬['.', ' '] <:+: line) : IsFirstSentence line line

/-- The sentence that a documentation text opens with, on a single line. A text of blanks opens with
none. -/
inductive Opens : List Char → List Char → Prop where
  | blank {doc : List Char} (hdoc : Text.isBlankText doc = true) : Opens doc []
  | paragraph {doc p sentence : List Char} {front back ws : List (List Char)}
      (hdoc : Text.HasParagraphs doc (front ++ p :: back))
      (hfront : ∀ q ∈ front, Text.isBlankText q = true) (hp : Text.isBlankText p = false)
      (hwords : Text.HasWords p ws)
      (hsentence : IsFirstSentence (Text.joinWith [' '] ws) sentence) : Opens doc sentence

variable {doc line sentence s : List Char}

theorem isFirstSentence_iff : IsFirstSentence line sentence ↔ sentence = firstSentence line := by
  constructor
  · intro h
    cases h with
    | stop hfirst =>
        rename_i front after
        rw [← Text.contains_iff_isInfix, Bool.not_eq_true] at hfirst
        have hsplit : Text.splitOnce? ['.', ' '] (front ++ (['.', ' '] ++ after)) = some (front, after) :=
          Text.splitOnce?_append (by simp) hfirst after
        rw [List.cons_append, List.cons_append, List.nil_append] at hsplit
        rw [firstSentence, hsplit]
    | whole hnone =>
        rw [firstSentence, (Text.splitOnce?_eq_none_iff (by simp)).mpr hnone]
  · rintro rfl
    rw [firstSentence]
    split
    · rename_i before after hsplit
      have hfirst := Text.contains_eq_false_of_splitOnce? (by simp) hsplit
      rw [← Bool.not_eq_true, Text.contains_iff_isInfix] at hfirst
      rw [Text.eq_append_of_splitOnce? hsplit]
      exact .stop hfirst
    · rename_i hnone
      exact .whole ((Text.splitOnce?_eq_none_iff (by simp)).mp hnone)

theorem firstParagraph_eq {p : List Char} {front back : List (List Char)}
    (hdoc : Text.HasParagraphs doc (front ++ p :: back))
    (hfront : ∀ q ∈ front, Text.isBlankText q = true) (hp : Text.isBlankText p = false) :
    firstParagraph doc = Text.trim p := by
  have hnone : (front.map Text.trim).find? (fun q => !q.isEmpty) = none := by
    rw [List.find?_eq_none, List.forall_mem_map]
    intro q hq
    rw [Text.trim_eq_nil_iff.mpr (hfront q hq)]
    decide
  rw [firstParagraph, ← Text.hasParagraphs_iff.mp hdoc, List.map_append, List.find?_append, hnone,
    Option.none_or, List.map_cons, List.find?_cons_of_pos (by simpa using Text.trim_ne_nil hp)]
  rfl

theorem firstParagraph_of_blank (h : Text.isBlankText doc = true) : firstParagraph doc = [] := by
  have hblank := (Text.hasParagraphs_paragraphs doc).isBlankText_iff.mp h
  have hnone : ((Text.paragraphs doc).map Text.trim).find? (fun q => !q.isEmpty) = none := by
    rw [List.find?_eq_none, List.forall_mem_map]
    intro q hq
    rw [Text.trim_eq_nil_iff.mpr (hblank q hq)]
    decide
  rw [firstParagraph, hnone]
  rfl

theorem exists_paragraph (h : Text.isBlankText doc = false) :
    ∃ front p back, Text.HasParagraphs doc (front ++ p :: back) ∧
      (∀ q ∈ front, Text.isBlankText q = true) ∧ Text.isBlankText p = false := by
  have hparagraphs := Text.hasParagraphs_paragraphs doc
  have hsome : ((Text.paragraphs doc).find? fun p => !Text.isBlankText p).isSome := by
    rw [List.find?_isSome]
    by_contra hnone
    have hblank : Text.isBlankText doc = true := by
      rw [hparagraphs.isBlankText_iff]
      simpa using hnone
    rw [h] at hblank
    cases hblank
  obtain ⟨p, hfind⟩ := Option.isSome_iff_exists.mp hsome
  obtain ⟨hp, front, back, heq, hfront⟩ := List.find?_eq_some_iff_append.mp hfind
  rw [heq] at hparagraphs
  exact ⟨front, p, back, hparagraphs, by simpa using hfront, by simpa using hp⟩

/-- A documentation text opens with exactly one sentence. -/
theorem opens_iff : Opens doc s ↔ s = firstSentence (collapse (firstParagraph doc)) := by
  constructor
  · intro h
    cases h with
    | blank hdoc =>
        rw [firstParagraph_of_blank hdoc]
        rfl
    | paragraph hdoc hfront hp hwords hsentence =>
        rw [firstParagraph_eq hdoc hfront hp, collapse, Text.words_trim, ← Text.hasWords_iff.mp hwords,
          ← isFirstSentence_iff]
        exact hsentence
  · rintro rfl
    cases hdoc : Text.isBlankText doc with
    | true =>
        rw [firstParagraph_of_blank hdoc]
        exact .blank hdoc
    | false =>
        obtain ⟨front, p, back, hparagraphs, hfront, hp⟩ := exists_paragraph hdoc
        refine .paragraph hparagraphs hfront hp (Text.hasWords_words p) ?_
        rw [isFirstSentence_iff, firstParagraph_eq hparagraphs hfront hp, collapse, Text.words_trim]

/-! The opening sentence is single-spaced, and so is what the cut leaves of it. -/

theorem IsFirstSentence.isSingleSpaced (h : IsFirstSentence line sentence)
    (hline : Text.IsSingleSpaced line) : Text.IsSingleSpaced sentence := by
  cases h with
  | stop hfirst =>
      apply hline.of_isPrefix (by simp)
      rw [List.getLast?_concat]
      rintro c ⟨⟩
      decide
  | whole _ => exact hline

theorem isSingleSpaced_words (p : List Char) :
    Text.IsSingleSpaced (Text.joinWith [' '] (Text.words p)) :=
  Text.isSingleSpaced_joinWith fun _ hw => Text.mem_words hw

theorem Opens.isSingleSpaced (h : Opens doc s) : Text.IsSingleSpaced s := by
  cases h with
  | blank hdoc => exact Text.isSingleSpaced_of_forall (by simp)
  | paragraph hdoc hfront hp hwords hsentence =>
      rw [Text.hasWords_iff] at hwords
      subst hwords
      exact hsentence.isSingleSpaced (isSingleSpaced_words _)

theorem isSingleSpaced_cut (h : Text.IsSingleSpaced s) : Text.IsSingleSpaced (cut s) := by
  rw [cut]
  split
  · exact h
  · have hdot : Text.isBlank '.' = false := by decide
    have hdots : Text.IsSingleSpaced ['.', '.', '.'] := Text.isSingleSpaced_of_forall (by simp [hdot])
    exact (h.trimEnd (List.take_prefix maxLength s)).append hdots

theorem length_cut_le (s : List Char) : (cut s).length ≤ 163 := by
  rw [cut]
  split
  · rename_i hshort
    exact hshort.trans (by decide)
  · have hkept := (Text.dropEndWhile_isPrefix Text.isBlank (s.take maxLength)).length_le
    have htaken : (s.take maxLength).length ≤ 160 := List.length_take_le _ _
    rw [List.length_append, Text.trimEnd]
    exact Nat.add_le_add_right (hkept.trans htaken) 3

theorem cut_eq_nil_iff : cut s = [] ↔ s = [] := by
  rw [cut]
  split
  · rfl
  · rename_i hlong
    constructor
    · intro h
      simp at h
    · rintro rfl
      exact absurd (Nat.zero_le maxLength) hlong

theorem IsFirstSentence.eq_nil_iff (h : IsFirstSentence line sentence) :
    sentence = [] ↔ line = [] := by
  cases h with
  | stop hfirst => simp
  | whole _ => rfl

theorem Opens.eq_nil_iff (h : Opens doc s) : s = [] ↔ Text.isBlankText doc = true := by
  cases h with
  | blank hdoc => exact iff_of_true rfl hdoc
  | paragraph hdoc hfront hp hwords hsentence =>
      have hdocument : Text.isBlankText doc ≠ true := by
        rw [Ne, hdoc.isBlankText_iff]
        intro hblank
        rw [hblank _ (by simp)] at hp
        cases hp
      refine iff_of_false ?_ hdocument
      rw [hsentence.eq_nil_iff]
      rw [Text.hasWords_iff] at hwords
      subst hwords
      apply Text.joinWith_ne_nil _ fun w hw => (Text.mem_words hw).1
      intro hnone
      rw [Text.isBlankText_of_words_eq_nil hnone] at hp
      cases hp

theorem opens_ofDoc (doc : String) :
    ∃ s, Opens doc.toList s ∧ (ofDoc doc).toList = cut s :=
  ⟨_, opens_iff.mpr rfl, by rw [ofDoc, String.toList_ofList]⟩

theorem isSingleSpaced_ofDoc (doc : String) : Text.IsSingleSpaced (ofDoc doc).toList := by
  obtain ⟨s, hopens, htext⟩ := opens_ofDoc doc
  rw [htext]
  exact isSingleSpaced_cut hopens.isSingleSpaced

theorem isLine_ofDoc (doc : String) : Text.IsLine (ofDoc doc).toList :=
  (isSingleSpaced_ofDoc doc).line

/-- Whatever a documentation text is, its summary has at most 163 characters and no blanks but single
spaces between its words, and it is empty only for a text of blanks. It is the one sentence that the text
opens with, or the start of that sentence and an ellipsis when the sentence has more than 160 characters.
An entry with this documentation is accepted exactly when its name is valid. -/
theorem ofDoc_opening (doc : String) :
    (ofDoc doc).toList.length ≤ 163 ∧
      Text.IsSingleSpaced (ofDoc doc).toList ∧
      (ofDoc doc = "" ↔ Text.isBlankText doc.toList = true) ∧
      (∃ s, (∀ t, Opens doc.toList t ↔ t = s) ∧
        (ofDoc doc).toList =
          if s.length ≤ 160 then s else Text.trimEnd (s.take 160) ++ ['.', '.', '.']) ∧
      ∀ e : Entry, (e.withDoc doc).check = none ↔ Name.isValid e.name = true := by
  obtain ⟨s, hopens, htext⟩ := opens_ofDoc doc
  refine ⟨?_, isSingleSpaced_ofDoc doc, ?_, ⟨s, ?_, htext⟩, ?_⟩
  · rw [htext]
    exact length_cut_le s
  · rw [← String.toList_inj, String.toList_empty, htext, cut_eq_nil_iff]
    exact hopens.eq_nil_iff
  · intro t
    rw [opens_iff, opens_iff.mp hopens]
  · intro e
    rw [Entry.check_eq_none_iff, Entry.withDoc]
    exact and_iff_left (isLine_ofDoc doc).newline_not_mem

end Summary

end NamelistCatalog
