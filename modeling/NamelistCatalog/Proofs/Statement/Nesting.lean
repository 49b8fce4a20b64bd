import NamelistCatalog.Proofs.Statement.Line
import NamelistCatalog.Statement.Nesting

namespace NamelistCatalog

/-- Where a place in a text stands: the quote that is open there, and the brackets that are to come for
those that are open, the innermost first. -/
structure Scope where
  quote : Option Char := none
  closers : List Char := []
deriving DecidableEq, Repr

namespace Scope

def closerOf (c : Char) : Char := if c == '(' then ')' else ']'

/-- The scope after a character, unless that is a bracket which closes none of its kind. -/
def next? (s : Scope) (c : Char) : Option Scope :=
  match s.quote with
  | some mark => some { s with quote := if c == mark then none else some mark }
  | none =>
      if isQuote c then some { s with quote := some c }
      else if Nesting.isOpening c then some { s with closers := closerOf c :: s.closers }
      else if Nesting.isClosing c then
        match s.closers with
        | closer :: rest => if c == closer then some { s with closers := rest } else none
        | [] => none
      else some s

def run? (s : Scope) (t : List Char) : Option Scope := t.foldlM next? s

/-- How many commas of a text stand outside quotes and brackets. -/
def commas (s : Scope) : List Char → Nat
  | [] => 0
  | c :: rest =>
      let more := ((s.next? c).map fun next => commas next rest).getD 0
      if c == ',' && s == {} then more + 1 else more

/-- What one character does to the scope. -/
inductive Step : Scope → Char → Scope → Prop
  | quoted {mark c : Char} {closers : List Char} :
      Step ⟨some mark, closers⟩ c ⟨if c == mark then none else some mark, closers⟩
  | quote {c : Char} {closers : List Char} (h : isQuote c = true) :
      Step ⟨none, closers⟩ c ⟨some c, closers⟩
  | opening {c : Char} {closers : List Char} (hquote : isQuote c = false)
      (h : Nesting.isOpening c = true) : Step ⟨none, closers⟩ c ⟨none, closerOf c :: closers⟩
  | closing {c : Char} {closers : List Char} (hquote : isQuote c = false)
      (hopening : Nesting.isOpening c = false) (h : Nesting.isClosing c = true) :
      Step ⟨none, c :: closers⟩ c ⟨none, closers⟩
  | plain {c : Char} {closers : List Char} (hquote : isQuote c = false)
      (hopening : Nesting.isOpening c = false) (hclosing : Nesting.isClosing c = false) :
      Step ⟨none, closers⟩ c ⟨none, closers⟩

def nesting (s : Scope) : Nesting := ⟨s.quote, s.closers.length⟩

end Scope

/-- Every bracket and every quote of the text is closed, each by its own kind. -/
def IsNested (t : List Char) : Prop := Scope.run? {} t = some {}

instance (t : List Char) : Decidable (IsNested t) := inferInstanceAs (Decidable (_ = _))

namespace Scope

variable {s s' : Scope} {c sep : Char} {t : List Char}

theorem step_of_next? (h : s.next? c = some s') : Step s c s' := by
  obtain ⟨quote, closers⟩ := s
  unfold next? at h
  cases quote with
  | some mark =>
      obtain rfl := Option.some.inj h
      exact .quoted
  | none =>
      dsimp only at h
      split at h
      · rename_i hquote
        obtain rfl := Option.some.inj h
        exact .quote hquote
      · rename_i hquote
        rw [Bool.not_eq_true] at hquote
        split at h
        · rename_i hopening
          obtain rfl := Option.some.inj h
          exact .opening hquote hopening
        · rename_i hopening
          rw [Bool.not_eq_true] at hopening
          split at h
          · rename_i hclosing
            split at h
            · split at h
              · rename_i closer rest hsame
                obtain rfl := Option.some.inj h
                obtain rfl := beq_iff_eq.mp hsame
                exact .closing hquote hopening hclosing
              · cases h
            · cases h
          · rename_i hclosing
            obtain rfl := Option.some.inj h
            exact .plain hquote hopening (Bool.eq_false_iff.mpr hclosing)

theorem exists_step_of_run?_cons (h : s.run? (c :: t) = some s') :
    ∃ next, s.next? c = some next ∧ Step s c next ∧ next.run? t = some s' := by
  obtain ⟨next, hnext, h⟩ := Option.bind_eq_some_iff.mp h
  exact ⟨next, hnext, step_of_next? hnext, h⟩

theorem Step.nextQuote_eq (h : Step s c s') : nextQuote s.quote c = s'.quote := by
  cases h with
  | quoted => rfl
  | quote h => exact if_pos h
  | opening hquote | closing hquote | plain hquote => exact if_neg (Bool.eq_false_iff.mp hquote)

theorem Step.next_nesting (h : Step s c s') (outer : Nat) :
    Nesting.next ⟨s.quote, s.closers.length + outer⟩ c = ⟨s'.quote, s'.closers.length + outer⟩ := by
  have hquote := h.nextQuote_eq
  unfold Nesting.next
  rw [hquote]
  congr 1
  cases h with
  | quoted => rfl
  | quote h =>
      have hplain : ∀ d, isQuote d = false → c ≠ d := by
        rintro d hd rfl
        rw [h] at hd
        cases hd
      have hopening : Nesting.isOpening c = false := by
        simp [Nesting.isOpening, hplain '(' (by decide), hplain '[' (by decide)]
      have hclosing : Nesting.isClosing c = false := by
        simp [Nesting.isClosing, hplain ')' (by decide), hplain ']' (by decide)]
      simp [hopening, hclosing]
  | opening _ h =>
      simp [h]
      omega
  | closing _ hopening h => simp [hopening, h]
  | plain _ hopening hclosing => simp [hopening, hclosing]

theorem foldl_next_nesting (h : s.run? t = some s') (outer : Nat) :
    t.foldl Nesting.next ⟨s.quote, s.closers.length + outer⟩ =
      ⟨s'.quote, s'.closers.length + outer⟩ := by
  induction t generalizing s with
  | nil =>
      obtain rfl := Option.some.inj h
      rfl
  | cons c rest ih =>
      obtain ⟨next, -, hstep, h⟩ := exists_step_of_run?_cons h
      rw [List.foldl_cons, hstep.next_nesting outer]
      exact ih h

theorem foldl_nextQuote (h : s.run? t = some s') : t.foldl nextQuote s.quote = s'.quote := by
  induction t generalizing s with
  | nil =>
      obtain rfl := Option.some.inj h
      rfl
  | cons c rest ih =>
      obtain ⟨next, -, hstep, h⟩ := exists_step_of_run?_cons h
      rw [List.foldl_cons, hstep.nextQuote_eq]
      exact ih h

theorem cutFrom_within (h : s.run? t = some s') (outer : Nat) :
    (Nesting.cutFrom sep ⟨s.quote, s.closers.length + (outer + 1)⟩ t).2 = [] := by
  induction t generalizing s with
  | nil => rfl
  | cons c rest ih =>
      obtain ⟨next, -, hstep, h⟩ := exists_step_of_run?_cons h
      have htop : Nesting.isTop ⟨s.quote, s.closers.length + (outer + 1)⟩ = false := by
        simp [Nesting.isTop]
      simp only [Nesting.cutFrom, htop, Bool.false_and, Bool.false_eq_true, if_false]
      rw [hstep.next_nesting]
      exact ih h

theorem isTop_nesting : s.nesting.isTop = (s == {}) := by
  obtain ⟨quote, closers⟩ := s
  cases quote <;> cases closers <;> rfl

/-- A text is cut once at each comma that stands outside its quotes and brackets. -/
theorem length_cutFrom (h : s.run? t = some s') :
    (Nesting.cutFrom ',' s.nesting t).2.length = s.commas t := by
  induction t generalizing s with
  | nil => rfl
  | cons c rest ih =>
      obtain ⟨next, hnext, hstep, h⟩ := exists_step_of_run?_cons h
      have hnesting : s.nesting.next c = next.nesting := hstep.next_nesting 0
      have hmore := ih h
      simp only [Nesting.cutFrom, commas, hnext, Option.map_some, Option.getD_some, isTop_nesting,
        hnesting]
      by_cases hc : c = ','
      · subst hc
        have hmarker : Nesting.isMarker ',' = false := by decide
        by_cases hs : s = {}
        · simp [hs, hmarker, hmore]
        · simp [hs, hmore]
      · simp [hc, hmore]

end Scope

end NamelistCatalog
