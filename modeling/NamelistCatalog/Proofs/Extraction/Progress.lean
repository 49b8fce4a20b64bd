import Mathlib.Algebra.Ring.Nat
import Mathlib.Logic.Function.Iterate
import NamelistCatalog.Proofs.Extraction

/-!
How far an extraction has come. A call hands out the next entry of all sets together and reads no set
that is not needed for it, so the sets that have been read are the shortest prefix of all sets that
gives as many entries as were asked for. Draining an extraction is calling it until nothing is left.
-/

namespace NamelistCatalog

/-- What an extraction of the set on its own gives. -/
def LoadedSet.alone (s : LoadedSet) : List Entry × ExtractionSummary := (Extraction.ofSets [s]).drain

theorem LoadedSet.alone_eq (s : LoadedSet) :
    s.alone =
      (s.extract.entries,
        { yielded := s.extract.entries.length
          skipped := s.extract.skipped
          documentsRead := s.extract.documentsRead
          warnings := s.extract.warnings }) := by
  simp [alone, Extraction.ofSets, Extraction.drain, Extraction.drainSets, ExtractionSummary.add,
    ExtractionSummary.yield]

namespace Extraction

/-- The entries of these sets, each extracted on its own. -/
def entriesOf (sets : List LoadedSet) : List Entry := sets.flatMap fun s => s.alone.1

/-- The totals of these sets, each extracted on its own, when so many entries are handed out. -/
def totals (sets : List LoadedSet) (yielded : Nat) : ExtractionSummary :=
  { yielded
    skipped := (sets.map fun s => s.alone.2.skipped).sum
    documentsRead := (sets.map fun s => s.alone.2.documentsRead).sum
    warnings := sets.flatMap fun s => s.alone.2.warnings }

/-- `read` is the shortest prefix of the sets that gives `k` entries, or all of the sets when they give
fewer. -/
structure ShortestPrefix (sets : List LoadedSet) (k : Nat) (read : List LoadedSet) : Prop where
  isPrefix : read <+: sets
  enough : k ≤ (entriesOf read).length ∨ (entriesOf sets).length < k ∧ read = sets
  shortest : ∀ p, p <+: sets → p.length < read.length → (entriesOf p).length < k

/-- The extraction after so many calls for an entry. -/
def after (x : Extraction) (calls : Nat) : Extraction := (fun x => x.next.2)^[calls] x

variable {sets read : List LoadedSet} {calls : Nat} {x : Extraction}

theorem entriesOf_eq (sets : List LoadedSet) :
    entriesOf sets = sets.flatMap fun s => s.extract.entries := by
  unfold entriesOf
  simp only [LoadedSet.alone_eq]

theorem entriesOf_append (sets more : List LoadedSet) :
    entriesOf (sets ++ more) = entriesOf sets ++ entriesOf more := List.flatMap_append

theorem entriesOf_concat (sets : List LoadedSet) (s : LoadedSet) :
    entriesOf (sets ++ [s]) = entriesOf sets ++ s.extract.entries := by
  rw [entriesOf_append, entriesOf_eq [s], List.flatMap_singleton]

theorem length_entriesOf_le {p : List LoadedSet} (h : p <+: sets) :
    (entriesOf p).length ≤ (entriesOf sets).length := by
  obtain ⟨more, rfl⟩ := h
  rw [entriesOf_append, List.length_append]
  exact Nat.le_add_right _ _

theorem totals_concat (sets : List LoadedSet) (s : LoadedSet) (yielded : Nat) :
    totals (sets ++ [s]) yielded = (totals sets yielded).add s.extract := by
  simp [totals, ExtractionSummary.add, LoadedSet.alone_eq]

theorem totals_add (sets : List LoadedSet) (yielded more : Nat) :
    totals sets (yielded + more) = (totals sets yielded).yield more := rfl

/-- How an extraction of these sets stands after a number of calls. What the sets in `read` gave and
what was not handed out waits in the buffer, and fewer of them would not have given enough. -/
structure Progress (sets read : List LoadedSet) (calls : Nat) (x : Extraction) : Prop where
  sets_eq : sets = read ++ x.pending
  buffer : x.buffer = (entriesOf read).drop calls
  enough : calls ≤ (entriesOf read).length ∨ x.pending = []
  shortest : ∀ p, p <+: read → p ≠ read → (entriesOf p).length < calls
  summary : x.summary = totals read (min calls (entriesOf sets).length)

theorem progress_ofSets (sets : List LoadedSet) : Progress sets [] 0 (ofSets sets) where
  sets_eq := rfl
  buffer := rfl
  enough := .inl (Nat.zero_le _)
  shortest := fun p hp hne => absurd (List.prefix_nil.mp hp) hne
  summary := by
    rw [Nat.zero_min]
    rfl

theorem Progress.isPrefix (h : Progress sets read calls x) : read <+: sets :=
  ⟨x.pending, h.sets_eq.symm⟩

theorem Progress.shortestPrefix (h : Progress sets read calls x) : ShortestPrefix sets calls read where
  isPrefix := h.isPrefix
  enough := by
    rcases h.enough with henough | hpending
    · exact .inl henough
    · have hread : read = sets := by rw [h.sets_eq, hpending, List.append_nil]
      rw [hread]
      exact (Nat.lt_or_ge (entriesOf sets).length calls).symm.imp_right fun hfew => ⟨hfew, rfl⟩
  shortest := by
    intro p hp hlength
    refine h.shortest p (List.prefix_of_prefix_length_le hp h.isPrefix (Nat.le_of_lt hlength)) ?_
    rintro rfl
    exact Nat.lt_irrefl _ hlength

theorem exists_progress_nextOfSets {pending : List LoadedSet} {summary : ExtractionSummary}
    (hsets : sets = read ++ pending) (hread : (entriesOf read).length ≤ calls)
    (henough : calls ≤ (entriesOf read).length ∨ pending = [])
    (hsummary : summary = totals read (min calls (entriesOf sets).length)) :
    (nextOfSets summary pending).1 = (entriesOf sets)[calls]? ∧
      ∃ read', Progress sets read' (calls + 1) (nextOfSets summary pending).2 := by
  induction pending generalizing read summary with
  | nil =>
      rw [List.append_nil] at hsets
      subst hsets
      refine ⟨(List.getElem?_eq_none hread).symm, sets, ?_⟩
      exact
        { sets_eq := (List.append_nil sets).symm
          buffer := (List.drop_eq_nil_of_le (Nat.le_succ_of_le hread)).symm
          enough := .inr rfl
          shortest := fun p hp _ =>
            Nat.lt_succ_of_le (Nat.le_trans (length_entriesOf_le hp) hread)
          summary := by
            rw [Nat.min_eq_right (Nat.le_succ_of_le hread), ← Nat.min_eq_right hread]
            exact hsummary }
  | cons s rest ih =>
      have hcalls : (entriesOf read).length = calls :=
        Nat.le_antisymm hread (henough.resolve_right (List.cons_ne_nil s rest))
      have hsets' : sets = (read ++ [s]) ++ rest := by rw [hsets, List.append_assoc]; rfl
      have hread' := entriesOf_concat read s
      have hsummary' : summary.add s.extract =
          totals (read ++ [s]) (min calls (entriesOf sets).length) := by
        rw [totals_concat, hsummary]
      rw [nextOfSets]
      split
      · -- The set gives nothing, so it is read in passing.
        rename_i hentries
        rw [hentries, List.append_nil] at hread'
        rw [← hread'] at hread hcalls
        exact ih hsets' hread (.inl (Nat.le_of_eq hcalls.symm)) hsummary'
      · rename_i e buffer hentries
        rw [hentries] at hread'
        have hall : entriesOf sets = entriesOf read ++ e :: (buffer ++ entriesOf rest) := by
          rw [hsets', entriesOf_append, hread', List.append_assoc, List.cons_append]
        refine ⟨?_, read ++ [s], ?_⟩
        · rw [hall, ← hcalls, List.getElem?_append_right (Nat.le_refl _), Nat.sub_self]
          rfl
        · exact
            { sets_eq := hsets'
              buffer := by
                rw [hread', ← hcalls, List.drop_append, List.drop_eq_nil_of_le (Nat.le_succ _)]
                simp
              enough := .inl (by rw [hread', List.length_append, List.length_cons]; omega)
              shortest := by
                intro p hp hne
                have hp := (List.prefix_concat_iff.mp hp).resolve_left hne
                exact Nat.lt_succ_of_le (Nat.le_trans (length_entriesOf_le hp) hread)
              summary := by
                have hlength : calls + 1 ≤ (entriesOf sets).length := by
                  rw [hall, List.length_append, List.length_cons]
                  omega
                rw [Nat.min_eq_left hlength, totals_add]
                rw [Nat.min_eq_left (Nat.le_of_succ_le hlength)] at hsummary'
                rw [← hsummary'] }

/-- A call hands out the next entry of all sets, if there is one. -/
theorem Progress.next (h : Progress sets read calls x) :
    x.next.1 = (entriesOf sets)[calls]? ∧ ∃ read', Progress sets read' (calls + 1) x.next.2 := by
  have hbuffer := h.buffer
  unfold Extraction.next
  split
  · rename_i e buffer heq
    rw [heq] at hbuffer
    have hlt : calls < (entriesOf read).length := by
      rw [← List.drop_eq_nil_iff.not.trans Nat.not_le, ← hbuffer]
      exact List.cons_ne_nil e buffer
    have hcons := hbuffer.trans (List.drop_eq_getElem_cons hlt)
    rw [List.cons.injEq] at hcons
    have hlength := Nat.lt_of_lt_of_le hlt (length_entriesOf_le h.isPrefix)
    refine ⟨?_, read, ?_⟩
    · rw [h.sets_eq, entriesOf_append, List.getElem?_append_left hlt, List.getElem?_eq_getElem hlt,
        hcons.1]
    · exact
        { sets_eq := h.sets_eq
          buffer := hcons.2
          enough := .inl hlt
          shortest := fun p hp hne => Nat.lt_succ_of_lt (h.shortest p hp hne)
          summary := by
            have hsummary := h.summary
            rw [Nat.min_eq_left (Nat.le_of_lt hlength)] at hsummary
            rw [Nat.min_eq_left hlength, hsummary]
            rfl }
  · rename_i heq
    rw [heq] at hbuffer
    exact exists_progress_nextOfSets h.sets_eq (List.drop_eq_nil_iff.mp hbuffer.symm) h.enough h.summary

theorem exists_progress_after (sets : List LoadedSet) (calls : Nat) :
    ∃ read, Progress sets read calls ((ofSets sets).after calls) := by
  induction calls with
  | zero => exact ⟨[], progress_ofSets sets⟩
  | succ calls ih =>
      obtain ⟨read, h⟩ := ih
      obtain ⟨-, read', h'⟩ := h.next
      refine ⟨read', ?_⟩
      rw [after, Function.iterate_succ_apply']
      exact h'

theorem nextOfSets_of_none {summary : ExtractionSummary} {pending : List LoadedSet}
    (h : (nextOfSets summary pending).1 = none) :
    ∃ total, (nextOfSets summary pending).2 = { pending := [], summary := total } := by
  induction pending generalizing summary with
  | nil => exact ⟨summary, rfl⟩
  | cons s rest ih =>
      rw [nextOfSets] at h ⊢
      split
      · rename_i hentries
        rw [hentries] at h
        exact ih h
      · rename_i e buffer hentries
        rw [hentries] at h
        cases h

theorem next_of_none (h : x.next.1 = none) : ∃ total, x.next.2 = { pending := [], summary := total } := by
  unfold Extraction.next at h ⊢
  split at h
  · cases h
  · exact nextOfSets_of_none h

theorem take_snd (x : Extraction) (k : Nat) : (x.take k).2 = x.after k := by
  induction k generalizing x with
  | zero => rfl
  | succ k ih =>
      rw [take, after, Function.iterate_succ_apply]
      split
      · rename_i y hnext
        -- From here on no call changes anything.
        obtain ⟨total, htotal⟩ := next_of_none (congrArg Prod.fst hnext)
        have hfixed : x.next.2.next.2 = x.next.2 := by rw [htotal]; rfl
        rw [Function.iterate_fixed hfixed k, hnext]
      · rename_i e y hnext
        dsimp only
        rw [ih, hnext]
        rfl

theorem Progress.take_fst (h : Progress sets read calls x) (k : Nat) :
    (x.take k).1 = ((entriesOf sets).drop calls).take k := by
  induction k generalizing read calls x with
  | zero => rfl
  | succ k ih =>
      obtain ⟨hentry, read', h'⟩ := h.next
      rw [take]
      split
      · rename_i y hnext
        rw [hnext] at hentry
        rw [List.drop_eq_nil_of_le (List.getElem?_eq_none_iff.mp hentry.symm), List.take_nil]
      · rename_i e y hnext
        rw [hnext] at hentry h'
        obtain ⟨hlt, he⟩ := List.getElem?_eq_some_iff.mp hentry.symm
        dsimp only
        rw [ih h', List.drop_eq_getElem_cons hlt, List.take_succ_cons, he]

theorem drainSets_eq_cons (summary : ExtractionSummary) (pending : List LoadedSet) :
    drainSets summary pending =
      ((nextOfSets summary pending).1.toList ++ (nextOfSets summary pending).2.drain.1,
        (nextOfSets summary pending).2.drain.2) := by
  induction pending generalizing summary with
  | nil => rfl
  | cons s rest ih =>
      rw [nextOfSets, drainSets]
      split
      · rename_i hentries
        rw [← ih, hentries]
        rfl
      · rename_i e buffer hentries
        rw [hentries, List.length_cons, drain, Nat.add_comm]
        simp only [ExtractionSummary.yield, Nat.add_assoc]
        rfl

theorem drain_eq_cons (x : Extraction) :
    x.drain = (x.next.1.toList ++ x.next.2.drain.1, x.next.2.drain.2) := by
  unfold Extraction.next
  split
  · rename_i e buffer heq
    rw [drain, drain, heq, List.length_cons, Nat.add_comm]
    simp only [ExtractionSummary.yield, Nat.add_assoc]
    rfl
  · rename_i heq
    rw [← drainSets_eq_cons, drain, heq]
    rfl

/-- Draining an extraction is taking more entries than it has. -/
theorem drain_eq_take {k : Nat} (h : x.drain.1.length < k) :
    x.drain = ((x.take k).1, (x.take k).2.summary) := by
  induction k generalizing x with
  | zero => exact absurd h (Nat.not_lt_zero _)
  | succ k ih =>
      rw [drain_eq_cons] at h ⊢
      rw [take]
      split
      · rename_i y hnext
        obtain ⟨total, htotal⟩ := next_of_none (congrArg Prod.fst hnext)
        rw [hnext] at htotal ⊢
        rw [htotal]
        rfl
      · rename_i e y hnext
        rw [hnext] at h ⊢
        have hrest : y.drain.1.length < k := Nat.lt_of_succ_lt_succ (by simpa using h)
        rw [ih hrest]
        rfl

/-- Taking `k` entries gives the first `k` entries of what the sets give on their own. It reads the
shortest prefix of the sets that gives so many, and the totals are those of the sets in it. -/
theorem take_ofSets_shortestPrefix (sets : List LoadedSet) (k : Nat) :
    ((ofSets sets).take k).1 = (sets.flatMap fun s => s.alone.1).take k ∧
      ∃ read, ShortestPrefix sets k read ∧ sets = read ++ ((ofSets sets).take k).2.pending ∧
        ((ofSets sets).take k).2.summary =
          { yielded := min k (sets.flatMap fun s => s.alone.1).length
            skipped := (read.map fun s => s.alone.2.skipped).sum
            documentsRead := (read.map fun s => s.alone.2.documentsRead).sum
            warnings := read.flatMap fun s => s.alone.2.warnings } := by
  obtain ⟨read, h⟩ := exists_progress_after sets k
  refine ⟨(progress_ofSets sets).take_fst k, read, h.shortestPrefix, ?_, ?_⟩
  · rw [take_snd]
    exact h.sets_eq
  · rw [take_snd]
    exact h.summary

end Extraction

end NamelistCatalog
