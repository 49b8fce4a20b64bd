import Mathlib.Data.List.SplitBy
import NamelistCatalog.Proofs.Name
import NamelistCatalog.Proofs.Text.Numeral

/-!
Numbers in release labels. A label is cut where digits begin and end, and its digits compare as the
numbers that they stand for, however large these are. So labels that have the same text in front of
their release numbers compare as the lists of these numbers do.
-/

namespace NamelistCatalog.SourceVersion

namespace Chunk

variable {run run' : List Char}

theorem ofRun_of_isDigit (hne : run ≠ []) (h : ∀ c ∈ run, c.isDigit = true) :
    ofRun run = .number (run.dropWhile (· == '0')) := by
  obtain ⟨c, rest, rfl⟩ := List.exists_cons_of_ne_nil hne
  rw [ofRun, if_pos (h c List.mem_cons_self)]

theorem ofRun_of_not_isDigit (hne : run ≠ []) (h : ∀ c ∈ run, c.isDigit = false) :
    ofRun run = .text run := by
  obtain ⟨c, rest, rfl⟩ := List.exists_cons_of_ne_nil hne
  rw [ofRun, if_neg (by simp [h c List.mem_cons_self])]

/-- Runs of digits compare as their values do, whatever zeros they start with. -/
theorem compare_ofRun (hne : run ≠ []) (hne' : run' ≠ []) (h : ∀ c ∈ run, c.isDigit = true)
    (h' : ∀ c ∈ run', c.isDigit = true) :
    Ord.compare (ofRun run) (ofRun run') =
      Ord.compare (Text.decimalValue run) (Text.decimalValue run') := by
  have hdigits : ∀ {s : List Char}, (∀ c ∈ s, c.isDigit = true) →
      ∀ c ∈ s.dropWhile (· == '0'), c.isDigit = true :=
    fun hs c hc => hs c ((List.dropWhile_sublist _).subset hc)
  have hzero : ∀ s : List Char, (s.dropWhile (· == '0')).head? ≠ some '0' := by
    intro s hs
    have hne := Text.eq_false_of_mem_head?_dropWhile hs
    cases hne
  rw [ofRun_of_isDigit hne h, ofRun_of_isDigit hne' h', ← Text.decimalValue_dropZeros run,
    ← Text.decimalValue_dropZeros run']
  exact Text.compare_decimalValue (hdigits h) (hdigits h') (hzero run) (hzero run')

end Chunk

theorem compare_eq_then (a b : SourceVersion) :
    Ord.compare a b = (Ord.compare (chunks a.text.toList) (chunks b.text.toList)).then
      (Ord.compare a.text.toList b.text.toList) := rfl

/-- Texts that are put together where digits begin or end have the chunks of both. -/
theorem chunks_append {s t : List Char}
    (h : ∀ c ∈ s.getLast?, ∀ d ∈ t.head?, c.isDigit ≠ d.isDigit) :
    chunks (s ++ t) = chunks s ++ chunks t := by
  rw [chunks, List.splitBy_append, List.map_append, chunks, chunks]
  intro c hc d hd
  rw [beq_eq_false_iff_ne]
  exact h c hc d hd

theorem chunks_run {run : List Char} {digit : Bool} (hne : run ≠ [])
    (h : ∀ c ∈ run, c.isDigit = digit) : chunks run = [Chunk.ofRun run] := by
  have hchain : run.IsChain fun a b => a.isDigit == b.isDigit := by
    apply List.Pairwise.isChain
    apply List.pairwise_of_forall_mem_list
    intro c hc d hd
    rw [beq_iff_eq, h c hc, h d hd]
  rw [chunks, List.splitBy_of_isChain hne hchain, List.map_singleton]

theorem chunks_run_append {run rest : List Char} {digit : Bool} (hne : run ≠ [])
    (h : ∀ c ∈ run, c.isDigit = digit) (hrest : ∀ c ∈ rest.head?, c.isDigit ≠ digit) :
    chunks (run ++ rest) = Chunk.ofRun run :: chunks rest := by
  rw [chunks_append, chunks_run hne h, List.singleton_append]
  intro c hc d hd
  rw [h c (List.mem_of_getLast? hc)]
  exact (hrest d hd).symm

/-- The label of a release: a text, then the numbers of the release in decimal, with dots between. -/
def numbered (front : String) (numbers : List Nat) : SourceVersion :=
  .ofString (front ++ ".".intercalate (numbers.map toString))

/-- The numbers of a release in decimal, with dots between. -/
def numbersText (numbers : List Nat) : List Char := (".".intercalate (numbers.map toString)).toList

def furtherText (numbers : List Nat) : List Char :=
  numbers.flatMap fun n => '.' :: (toString n).toList

def numberChunk (n : Nat) : Chunk := .ofRun (toString n).toList

/-- The chunks of numbers in decimal, each behind a dot. -/
def furtherChunks (numbers : List Nat) : List Chunk :=
  numbers.flatMap fun n => [.text ['.'], numberChunk n]

def numbersChunks : List Nat → List Chunk
  | [] => []
  | n :: rest => numberChunk n :: furtherChunks rest

theorem toList_toString_ne_nil (n : Nat) : (toString n).toList ≠ [] := by
  rw [ne_eq, String.toList_eq_nil_iff]
  exact Text.toString_ne_empty n

theorem numbersText_cons (n : Nat) (rest : List Nat) :
    numbersText (n :: rest) = (toString n).toList ++ furtherText rest := by
  induction rest generalizing n with
  | nil => simp [numbersText, furtherText]
  | cons m rest ih =>
      have hjoin : numbersText (n :: m :: rest) =
          (toString n).toList ++ ['.'] ++ numbersText (m :: rest) := by
        simp [numbersText, String.toList_intercalate]
      rw [hjoin, ih m, List.append_assoc]
      rfl

theorem head?_furtherText {numbers : List Nat} {c : Char} (h : c ∈ (furtherText numbers).head?) :
    c = '.' := by
  cases numbers with
  | nil => cases h
  | cons n rest =>
      cases h
      rfl

theorem isDigit_of_mem_head?_toString {n : Nat} {t : List Char} {c : Char}
    (h : c ∈ ((toString n).toList ++ t).head?) : c.isDigit = true := by
  rw [List.head?_append, List.head?_eq_some_head (toList_toString_ne_nil n), Option.some_or,
    ← List.head?_eq_some_head] at h
  exact Text.isDigit_of_mem_toString (List.mem_of_mem_head? h)

theorem chunks_number_append (n : Nat) (rest : List Nat) :
    chunks ((toString n).toList ++ furtherText rest) = numberChunk n :: chunks (furtherText rest) := by
  apply chunks_run_append (toList_toString_ne_nil n) fun _ hc => Text.isDigit_of_mem_toString hc
  intro c hc
  rw [head?_furtherText hc]
  decide

theorem chunks_furtherText (numbers : List Nat) :
    chunks (furtherText numbers) = furtherChunks numbers := by
  induction numbers with
  | nil => rfl
  | cons n rest ih =>
      have htext : furtherText (n :: rest) = ['.'] ++ ((toString n).toList ++ furtherText rest) := rfl
      have hdot : ∀ c ∈ ['.'], c.isDigit = false := List.forall_mem_singleton.mpr (by decide)
      rw [htext, chunks_run_append (by simp) hdot, chunks_number_append, ih]
      · rfl
      · intro c hc
        rw [isDigit_of_mem_head?_toString hc]
        decide

theorem chunks_numbersText (numbers : List Nat) :
    chunks (numbersText numbers) = numbersChunks numbers := by
  cases numbers with
  | nil => rfl
  | cons n rest => rw [numbersText_cons, chunks_number_append, chunks_furtherText, numbersChunks]

theorem compare_numberChunk (m n : Nat) :
    Ord.compare (numberChunk m) (numberChunk n) = Ord.compare m n := by
  rw [numberChunk, numberChunk, Chunk.compare_ofRun (toList_toString_ne_nil m)
    (toList_toString_ne_nil n) (fun _ hc => Text.isDigit_of_mem_toString hc)
    (fun _ hc => Text.isDigit_of_mem_toString hc), Text.decimalValue_toString,
    Text.decimalValue_toString]

theorem compareLex_furtherChunks (xs ys : List Nat) :
    List.compareLex Ord.compare (furtherChunks xs) (furtherChunks ys) =
      List.compareLex Ord.compare xs ys := by
  induction xs generalizing ys with
  | nil => cases ys <;> rfl
  | cons x xs ih =>
      cases ys with
      | nil => rfl
      | cons y ys =>
          have hdot : Ord.compare (Chunk.text ['.']) (Chunk.text ['.']) = .eq := by decide
          have hsplit : ∀ n rest, furtherChunks (n :: rest) =
              .text ['.'] :: numberChunk n :: furtherChunks rest := fun _ _ => rfl
          rw [hsplit, hsplit, List.compareLex_cons_cons, hdot, Ordering.eq_then,
            List.compareLex_cons_cons, List.compareLex_cons_cons, compare_numberChunk, ih]

theorem compareLex_numbersChunks (xs ys : List Nat) :
    List.compareLex Ord.compare (numbersChunks xs) (numbersChunks ys) =
      List.compareLex Ord.compare xs ys := by
  cases xs with
  | nil => cases ys <;> rfl
  | cons x xs =>
      cases ys with
      | nil => rfl
      | cons y ys =>
          rw [numbersChunks, numbersChunks, List.compareLex_cons_cons, List.compareLex_cons_cons,
            compare_numberChunk, compareLex_furtherChunks]

theorem compareLex_append_left {α : Type} {cmp : α → α → Ordering} [Std.ReflCmp cmp]
    (front xs ys : List α) :
    List.compareLex cmp (front ++ xs) (front ++ ys) = List.compareLex cmp xs ys := by
  induction front with
  | nil => rfl
  | cons a rest ih =>
      have hself : cmp a a = .eq := Std.ReflCmp.compare_self
      rw [List.cons_append, List.cons_append, List.compareLex_cons_cons, hself, Ordering.eq_then, ih]

section Numbered

variable {front : String}

theorem isTrimmed_numbersText (numbers : List Nat) : Text.IsTrimmed (numbersText numbers) := by
  have hnumber : ∀ n : Nat, ∀ c ∈ (toString n).toList, Text.isBlank c = false := fun _ c hc =>
    Name.isBlank_of_isNameChar (Name.isNameChar_of_isDigit (Text.isDigit_of_mem_toString hc))
  apply Text.isTrimmed_of_forall
  intro c hc
  cases numbers with
  | nil => cases hc
  | cons n rest =>
      rw [numbersText_cons, List.mem_append] at hc
      rcases hc with hc | hc
      · exact hnumber n c hc
      · obtain ⟨m, -, hc⟩ := List.mem_flatMap.mp hc
        rcases List.mem_cons.mp hc with rfl | hc
        · decide
        · exact hnumber m c hc

theorem toList_numbered (htrimmed : Text.IsTrimmed front.toList) (numbers : List Nat) :
    (numbered front numbers).text.toList = front.toList ++ numbersText numbers := by
  rw [numbered, toList_ofString, String.toList_append]
  exact Text.trim_eq_self_iff.mpr (htrimmed.append (isTrimmed_numbersText numbers))

theorem chunks_numbered (htrimmed : Text.IsTrimmed front.toList)
    (hdigits : ∀ c ∈ front.toList, c.isDigit = false) (numbers : List Nat) :
    chunks (numbered front numbers).text.toList = chunks front.toList ++ numbersChunks numbers := by
  rw [toList_numbered htrimmed, chunks_append, chunks_numbersText]
  intro c hc d hd
  rw [hdigits c (List.mem_of_getLast? hc)]
  cases numbers with
  | nil => cases hd
  | cons n rest =>
      rw [numbersText_cons] at hd
      rw [isDigit_of_mem_head?_toString hd]
      decide

/-- Labels that have the same text in front of their numbers compare as the lists of their numbers do,
number by number. -/
theorem compare_numbered (htrimmed : Text.IsTrimmed front.toList)
    (hdigits : ∀ c ∈ front.toList, c.isDigit = false) (xs ys : List Nat) :
    Ord.compare (numbered front xs) (numbered front ys) = List.compareLex Ord.compare xs ys := by
  have hchunks : Ord.compare (chunks (numbered front xs).text.toList)
      (chunks (numbered front ys).text.toList) = List.compareLex Ord.compare xs ys := by
    rw [chunks_numbered htrimmed hdigits, chunks_numbered htrimmed hdigits,
      List.compare_eq_compareLex, compareLex_append_left, compareLex_numbersChunks]
  rw [compare_eq_then, hchunks]
  -- The texts decide only between equal numbers, which have equal texts.
  cases hnumbers : List.compareLex Ord.compare xs ys with
  | lt => rfl
  | gt => rfl
  | eq =>
      obtain rfl : xs = ys := Std.LawfulEqCmp.eq_of_compare hnumbers
      rw [Ordering.eq_then]
      exact Std.ReflCmp.compare_self

end Numbered

theorem compare_numbered_largeNumber :
    Text.IsTrimmed "r".toList ∧ (∀ c ∈ "r".toList, c.isDigit = false) ∧
      Ord.compare (numbered "r" [22, 0, 20000000000000000000]) (numbered "r" [22, 0, 3, 1]) = .gt := by
  have htrimmed : Text.IsTrimmed "r".toList := by decide
  have hdigits : ∀ c ∈ "r".toList, c.isDigit = false := List.forall_mem_singleton.mpr (by decide)
  refine ⟨htrimmed, hdigits, ?_⟩
  rw [compare_numbered htrimmed hdigits]
  decide +kernel

end NamelistCatalog.SourceVersion
