import NamelistCatalog.Proofs.Defaults.Doc

namespace NamelistCatalog

namespace DocEvent

def name? : DocEvent → Option String
  | .header name => some name
  | _ => none

/-- The line that the event gives to the block that is open. -/
def line? : DocEvent → Option (List Char)
  | .line body => some body
  | .blank => some []
  | _ => none

def isHeading (e : DocEvent) : Bool := e.name?.isSome || e.line?.any Text.isBlankText

def isText (e : DocEvent) : Bool := e.line?.isSome

end DocEvent

namespace Doc

/-- The names that head a block, and the lines that document them. -/
structure Block where
  names : List String
  lines : List (List Char)
deriving DecidableEq, Repr

namespace Block

def ofEvents (events : List DocEvent) : Block :=
  ⟨events.filterMap DocEvent.name?, events.filterMap DocEvent.line?⟩

def text (b : Block) : String := render b.lines

/-- The documentation that each name of the block has. -/
def texts (b : Block) : Texts := b.names.map fun name => (name, b.text)

end Block

/-- The blocks of a sequence of events. Lines outside of the blocks are left out. -/
def blocks : List DocEvent → List Block
  | [] => []
  | .header name :: rest =>
      let heading := rest.takeWhile DocEvent.isHeading
      let others := rest.dropWhile DocEvent.isHeading
      Block.ofEvents (.header name :: (heading ++ others.takeWhile DocEvent.isText)) ::
        blocks (others.dropWhile DocEvent.isText)
  | _ :: rest => blocks rest
termination_by events => events.length
decreasing_by
  · have hothers := (rest.dropWhile_suffix DocEvent.isHeading).length_le
    have hafter := ((rest.dropWhile DocEvent.isHeading).dropWhile_suffix DocEvent.isText).length_le
    rw [List.length_cons]
    omega
  · exact Nat.lt_succ_self _

theorem lookup_texts (b : Block) (name : String) :
    b.texts.lookup name = if name ∈ b.names then some b.text else none := by
  rw [Block.texts]
  induction b.names with
  | nil => rfl
  | cons other rest ih =>
      rw [List.map_cons, List.lookup_cons, ih]
      by_cases hname : name = other
      · simp [hname]
      · have hother : (name == other) = false := beq_eq_false_iff_ne.mpr hname
        simp [hname, hother]

theorem lookup_flatMap_texts (bs : List Block) (name : String) :
    (bs.flatMap Block.texts).lookup name = (bs.find? fun b => name ∈ b.names).map Block.text := by
  induction bs with
  | nil => rfl
  | cons b rest ih =>
      rw [List.flatMap_cons, List.lookup_append, lookup_texts, ih]
      by_cases hname : name ∈ b.names
      · simp [hname]
      · simp [hname]

namespace Collector

variable {texts : Texts} {events more : List DocEvent} {e : DocEvent}

/-- The collector when the block of these events is open. -/
def opened (texts : Texts) (events : List DocEvent) : Collector :=
  { names := (Block.ofEvents events).names
    lines := (Block.ofEvents events).lines
    isOpen := true
    texts }

theorem close_opened (texts : Texts) (events : List DocEvent) :
    (opened texts events).close = { texts := texts ++ (Block.ofEvents events).texts } := rfl

theorem isBlank_opened (h : ∀ e ∈ events, e.isHeading = true) :
    (opened texts events).lines.all Text.isBlankText = true := by
  rw [List.all_eq_true]
  intro line hline
  obtain ⟨e, he, heq⟩ := List.mem_filterMap.mp hline
  have hheading := h e he
  cases e with
  | header name => cases heq
  | endBlock => cases heq
  | line body =>
      obtain rfl := Option.some.inj heq
      exact hheading
  | blank =>
      obtain rfl := Option.some.inj heq
      rfl

theorem not_isBlank_opened (hmem : e ∈ events) (htext : e.isText = true)
    (hheading : e.isHeading = false) : (opened texts events).lines.all Text.isBlankText = false := by
  obtain ⟨line, hline⟩ := Option.isSome_iff_exists.mp htext
  have hblank : Text.isBlankText line = false := by
    rw [DocEvent.isHeading, hline, Bool.or_eq_false_iff] at hheading
    exact hheading.2
  rw [List.all_eq_false]
  exact ⟨line, List.mem_filterMap.mpr ⟨e, hmem, hline⟩, Bool.eq_false_iff.mp hblank⟩

theorem step_text (he : e.isText = true) : (opened texts events).step e = opened texts (events ++ [e]) := by
  cases e with
  | line body => simp [opened, step, push, Block.ofEvents, DocEvent.name?, DocEvent.line?]
  | blank => simp [opened, step, push, Block.ofEvents, DocEvent.name?, DocEvent.line?]
  | header name => cases he
  | endBlock => cases he

theorem step_heading (h : ∀ e ∈ events, e.isHeading = true) (he : e.isHeading = true) :
    (opened texts events).step e = opened texts (events ++ [e]) := by
  cases e with
  | line body => exact step_text rfl
  | blank => exact step_text rfl
  | endBlock => cases he
  | header name =>
      rw [step, if_pos (isBlank_opened h)]
      simp [opened, Block.ofEvents, DocEvent.name?, DocEvent.line?]

theorem foldl_text (h : ∀ e ∈ more, e.isText = true) :
    more.foldl step (opened texts events) = opened texts (events ++ more) := by
  induction more generalizing events with
  | nil => rw [List.append_nil]; rfl
  | cons e rest ih =>
      rw [List.forall_mem_cons] at h
      rw [List.foldl_cons, step_text h.1, ih h.2, List.append_assoc, List.singleton_append]

theorem foldl_heading (hevents : ∀ e ∈ events, e.isHeading = true)
    (hmore : ∀ e ∈ more, e.isHeading = true) :
    more.foldl step (opened texts events) = opened texts (events ++ more) := by
  induction more generalizing events with
  | nil => rw [List.append_nil]; rfl
  | cons e rest ih =>
      rw [List.forall_mem_cons] at hmore
      have hnext : ∀ e' ∈ events ++ [e], e'.isHeading = true :=
        List.forall_mem_append.mpr ⟨hevents, List.forall_mem_singleton.mpr hmore.1⟩
      rw [List.foldl_cons, step_heading hevents hmore.1, ih hnext hmore.2, List.append_assoc,
        List.singleton_append]

theorem finish_foldl_opened
    (hnext : ∀ e ∈ more.head?, e.isText = false ∧
      (e.isHeading = true → (opened texts events).lines.all Text.isBlankText = false)) :
    (more.foldl step (opened texts events)).finish =
      (more.foldl step { texts := texts ++ (Block.ofEvents events).texts }).finish := by
  rw [← close_opened]
  cases more with
  | nil => rfl
  | cons e rest =>
      obtain ⟨htext, hheading⟩ := hnext e rfl
      have hstep : (opened texts events).step e = (opened texts events).close.step e := by
        cases e with
        | line body => cases htext
        | blank => cases htext
        | endBlock => rfl
        | header name =>
            rw [step, if_neg (Bool.eq_false_iff.mp (hheading rfl))]
            rfl
      rw [List.foldl_cons, List.foldl_cons, hstep]

theorem closes_of_dropWhile {others : List DocEvent} (h : ∀ e ∈ others.head?, e.isHeading = false)
    (heading : List DocEvent) :
    ∀ e ∈ (others.dropWhile DocEvent.isText).head?, e.isText = false ∧ (e.isHeading = true →
      (opened texts (heading ++ others.takeWhile DocEvent.isText)).lines.all Text.isBlankText =
        false) := by
  intro e he
  refine ⟨?_, ?_⟩
  · exact Text.eq_false_of_mem_head?_dropWhile he
  · intro hheading
    cases others with
    | nil => cases he
    | cons first rest =>
        have hfirst : first.isHeading = false := h first rfl
        by_cases htext : first.isText = true
        · apply not_isBlank_opened (e := first) _ htext hfirst
          rw [List.takeWhile_cons_of_pos htext]
          simp
        · rw [List.dropWhile_cons_of_neg htext, List.head?_cons, Option.mem_some] at he
          rw [← he, hfirst] at hheading
          cases hheading

/-- What is collected is the documentation of the blocks, behind what was known before. -/
theorem finish_foldl (texts : Texts) (events : List DocEvent) :
    (events.foldl step { texts }).finish = texts ++ (blocks events).flatMap Block.texts := by
  induction events using blocks.induct generalizing texts with
  | case1 => simp [blocks, finish, step]
  | case2 name rest others ih =>
      have hheading : ∀ e ∈ rest.takeWhile DocEvent.isHeading, e.isHeading = true :=
        fun e he => List.mem_takeWhile_imp he
      have hbody : ∀ e ∈ others.takeWhile DocEvent.isText, e.isText = true :=
        fun e he => List.mem_takeWhile_imp he
      have hrest : rest = rest.takeWhile DocEvent.isHeading ++
          (others.takeWhile DocEvent.isText ++ others.dropWhile DocEvent.isText) := by
        rw [List.takeWhile_append_dropWhile, List.takeWhile_append_dropWhile]
      have hopened : rest.foldl step (opened texts [.header name]) =
          (others.dropWhile DocEvent.isText).foldl step (opened texts
            (.header name :: (rest.takeWhile DocEvent.isHeading ++ others.takeWhile DocEvent.isText))) := by
        conv_lhs => rw [hrest]
        rw [List.foldl_append, foldl_heading (by simp [DocEvent.isHeading, DocEvent.name?]) hheading,
          List.foldl_append, foldl_text hbody]
        rfl
      have hothers : ∀ e ∈ others.head?, e.isHeading = false :=
        fun e he => Text.eq_false_of_mem_head?_dropWhile (s := rest) he
      rw [blocks, List.flatMap_cons, List.foldl_cons]
      change (rest.foldl step (opened texts [.header name])).finish = _
      rw [hopened, ← List.cons_append, finish_foldl_opened (closes_of_dropWhile hothers _), ih,
        List.append_assoc]
  | case3 e rest hheader ih =>
      have hstep : step { texts } e = { texts } := by
        cases e with
        | header name => exact absurd rfl (hheader name)
        | line body => rfl
        | blank => rfl
        | endBlock => rfl
      rw [List.foldl_cons, hstep, ih, blocks]
      exact hheader

end Collector

/-- Each name that heads a block has the text of the first block that it heads, and no other name has a
text. -/
theorem lookup_ofEvents (events : List DocEvent) (name : String) :
    (ofEvents events).lookup name =
      ((blocks events).find? fun b => name ∈ b.names).map Block.text := by
  rw [ofEvents, Collector.finish_foldl, List.nil_append, lookup_flatMap_texts]

end Doc

end NamelistCatalog
