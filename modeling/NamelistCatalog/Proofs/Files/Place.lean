import Mathlib.Data.List.MinMax
import NamelistCatalog.Files.Tree
import NamelistCatalog.Proofs.Association
import NamelistCatalog.Proofs.Text.Trim

namespace NamelistCatalog

namespace FileTree

variable {t t' : FileTree} {place other here : Location} {node : FileNode} {id links : Nat}
  {bytes : List UInt8} {segments : List Segment} {p : Path}

/-! What lies at a place after a change. -/

theorem node?_of_ne_directory (h : t.node? place ≠ some .directory) :
    (place ≠ [] ∧ place ≠ root) ∧ t.node? place = t.nodes.lookup place := by
  rw [node?] at h ⊢
  split at h
  · exact absurd rfl h
  · rename_i hplace
    rw [not_or] at hplace
    exact ⟨hplace, if_neg (by simpa using hplace)⟩

theorem node?_set_ne (h : other ≠ place) : (t.set place node).node? other = t.node? other := by
  have hkey : (other == place) = false := beq_eq_false_iff_ne.mpr h
  rw [node?, node?, set, List.lookup_cons, hkey, Association.lookup_filter_ne h.symm]

theorem node?_set_self (h : t.node? place ≠ some .directory) :
    (t.set place node).node? place = some node := by
  obtain ⟨⟨hempty, hroot⟩, -⟩ := node?_of_ne_directory h
  rw [node?, if_neg (by simp [hempty, hroot]), set, List.lookup_cons, beq_self_eq_true]

theorem node?_set_directory : (t.set place .directory).node? place = some .directory := by
  rw [node?]
  split
  · rfl
  · rw [set, List.lookup_cons, beq_self_eq_true]

theorem node?_erase_ne (h : other ≠ place) : (t.erase place).node? other = t.node? other := by
  rw [node?, node?, erase, Association.lookup_filter_ne h.symm]

theorem node?_erase_self (h : t.node? place ≠ some .directory) :
    (t.erase place).node? place = none := by
  obtain ⟨⟨hempty, hroot⟩, -⟩ := node?_of_ne_directory h
  rw [node?, if_neg (by simp [hempty, hroot]), erase, Association.lookup_filter_self]

theorem node?_setContent : (t.setContent id bytes).node? place = t.node? place := rfl

theorem content_set : (t.set place node).content id = t.content id := rfl

theorem content_setContent_self : (t.setContent id bytes).content id = bytes := by
  rw [content, setContent, List.lookup_cons, beq_self_eq_true]
  rfl

theorem content_setContent_ne {i : Nat} (h : i ≠ id) :
    (t.setContent id bytes).content i = t.content i := by
  have hkey : (i == id) = false := beq_eq_false_iff_ne.mpr h
  rw [content, content, setContent, List.lookup_cons, hkey, Association.lookup_filter_ne h.symm]

theorem lt_freshId (h : t.node? place = some (.file id)) : id < t.freshId := by
  have hlookup : t.nodes.lookup place = some (.file id) := by
    rw [← (node?_of_ne_directory (by rw [h]; simp)).2, h]
  obtain ⟨before, after, hnodes, -⟩ := List.lookup_eq_some_iff.mp hlookup
  have hmem : (FileNode.file id).nextId ∈ t.nodes.map fun n => n.2.nextId := by
    rw [hnodes]
    simp
  exact List.le_max_of_le' 0 hmem (Nat.le_refl _)

/-! What lies behind a place. -/

theorem look_directory (h : t.node? place = some .directory) :
    t.look links place = .ok (.directory place) := by
  rw [look.eq_def, h]

theorem look_file (h : t.node? place = some (.file id)) :
    t.look links place = .ok (.file place id) := by
  rw [look.eq_def, h]

theorem look_vacant (h : t.node? place = none) : t.look links place = .ok (.vacant place false) := by
  rw [look.eq_def, h]

theorem look_link_zero {target : Path} (h : t.node? place = some (.link target)) :
    t.look 0 place = .error .tooManyLinks := by
  rw [look.eq_def, h]

theorem look_link_succ {target : Path} (h : t.node? place = some (.link target)) :
    t.look (links + 1) place = follow (t.look links) (above place) target := by
  rw [look.eq_def, h]

/-- The place is not the same link in both trees. -/
def IsLoose (t t' : FileTree) (place : Location) : Prop :=
  ∀ target, t.node? place = some (.link target) → t'.node? place ≠ some (.link target)

theorem look_eq_of_isLoose (links links' : Nat) (h : IsLoose t t' place)
    (hnode : t'.node? place = t.node? place) : t'.look links' place = t.look links place := by
  cases hold : t.node? place with
  | none => rw [look_vacant hold, look_vacant (hnode.trans hold)]
  | some node =>
      rw [hold] at hnode
      cases node with
      | directory => rw [look_directory hold, look_directory hnode]
      | file id => rw [look_file hold, look_file hnode]
      | link target => exact absurd hnode (h target hold)

theorem walk_of_all_isEmpty {look : Location → Except IoFault Found}
    (h : segments.all List.isEmpty = true) : walk look here segments = .ok (.directory here) := by
  induction segments with
  | nil => rfl
  | cons segment rest ih =>
      rw [List.all_cons, Bool.and_eq_true] at h
      rw [walk, if_pos (by rw [Path.isIdle, h.1, Bool.true_or]), ih h.2]

theorem walk_append {look : Location → Except IoFault Found} {there : Location}
    (h : walk look here segments = .ok (.directory there)) (more : List Segment) :
    walk look here (segments ++ more) = walk look there more := by
  induction segments generalizing here with
  | nil =>
      obtain rfl := Found.directory.inj (Except.ok.inj h)
      rfl
  | cons segment rest ih =>
      rw [walk] at h
      rw [List.cons_append, walk]
      split
      · rename_i hidle
        rw [if_pos hidle] at h
        exact ih h
      · rename_i hidle
        rw [if_neg hidle] at h
        split
        · rename_i hup
          rw [if_pos hup] at h
          exact ih h
        · rename_i hup
          rw [if_neg hup] at h
          revert h
          cases look (here ++ [segment]) with
          | error fault => nofun
          | ok found =>
              cases found with
              | directory place => exact ih
              | file place id =>
                  rw [onward]
                  split <;> nofun
              | vacant place closed =>
                  rw [onward]
                  split <;> nofun

/-! Relations between answers. -/

/-- A relation between answers that says nothing where the first fails, holds of equal directories and
is kept when the same segments are followed behind both. -/
structure IsCarried (R : Except IoFault Found → Except IoFault Found → Prop) : Prop where
  fault : ∀ fault answer, R (.error fault) answer
  directory : ∀ place, R (.ok (.directory place)) (.ok (.directory place))
  onward : ∀ {next next' : Location → Except IoFault Found} {rest : List Segment},
    (∀ there, R (next there) (next' there)) →
    (rest.all List.isEmpty = true → ∀ there, next' there = .ok (.directory there)) →
    ∀ {answer answer'}, R answer answer' → R (onward next rest answer) (onward next' rest answer')

namespace IsCarried

variable {R : Except IoFault Found → Except IoFault Found → Prop} (h : IsCarried R)
include h

theorem walk {look look' : Location → Except IoFault Found}
    (hlook : ∀ place, R (look place) (look' place)) (here : Location) (segments : List Segment) :
    R (walk look here segments) (walk look' here segments) := by
  induction segments generalizing here with
  | nil => exact h.directory here
  | cons segment rest ih =>
      rw [FileTree.walk, FileTree.walk]
      split
      · exact ih here
      · split
        · exact ih (above here)
        · exact h.onward ih (fun hrest there => walk_of_all_isEmpty hrest) (hlook _)

theorem follow (look look' : Location → Except IoFault Found)
    (hlook : ∀ place, R (look place) (look' place)) (here : Location) (p : Path) :
    R (follow look here p) (follow look' here p) := by
  rw [FileTree.follow, FileTree.follow]
  split
  · exact h.fault _ _
  · exact h.walk hlook _ _

/-- What two trees show is related at every place if it is where they do not have the same link. -/
theorem look (t t' : FileTree) (extra : Nat)
    (hplace : ∀ k ≤ links, ∀ place, IsLoose t t' place → R (t.look k place) (t'.look (k + extra) place))
    (place : Location) : R (t.look links place) (t'.look (links + extra) place) := by
  induction links generalizing place with
  | zero =>
      by_cases hloose : IsLoose t t' place
      · exact hplace 0 (Nat.le_refl _) place hloose
      · simp only [IsLoose, not_forall, not_not] at hloose
        obtain ⟨target, hnode, -⟩ := hloose
        rw [look_link_zero hnode]
        exact h.fault _ _
  | succ links ih =>
      by_cases hloose : IsLoose t t' place
      · exact hplace _ (Nat.le_refl _) place hloose
      · simp only [IsLoose, not_forall, not_not] at hloose
        obtain ⟨target, hnode, hnode'⟩ := hloose
        rw [look_link_succ hnode, Nat.add_right_comm, look_link_succ hnode']
        exact h.follow _ _ (ih fun k hk => hplace k (Nat.le_succ_of_le hk)) _ _

end IsCarried

/-! What a path leads to is what lies there. -/

/-- What was found is in the tree, and a free place is not. -/
def Shows (t : FileTree) : Found → Prop
  | .directory _ => True
  | .file place id => t.node? place = some (.file id)
  | .vacant place _ => t.node? place = none

theorem isCarried_shows (t : FileTree) :
    IsCarried fun answer _ => ∀ found, answer = .ok found → t.Shows found where
  fault := nofun
  directory := by
    rintro place _ ⟨⟩
    trivial
  onward := by
    intro next next' rest hnext hrest answer answer' hanswer found hfound
    revert hfound hanswer
    cases answer with
    | error fault => nofun
    | ok behind =>
        cases behind with
        | directory there => exact fun _ => hnext there found
        | file place id =>
            rw [onward]
            split
            · exact fun hanswer => hanswer found
            · nofun
        | vacant place closed =>
            rw [onward]
            split
            · rintro hanswer ⟨⟩
              exact hanswer (.vacant place closed) rfl
            · nofun

theorem shows_look {found : Found} (h : t.look links place = .ok found) : t.Shows found := by
  refine (isCarried_shows t).look t t 0 ?_ place found h
  intro k _ place hloose found hfound
  cases hnode : t.node? place with
  | none =>
      rw [look_vacant hnode] at hfound
      obtain rfl := Except.ok.inj hfound
      exact hnode
  | some node =>
      cases node with
      | directory =>
          rw [look_directory hnode] at hfound
          obtain rfl := Except.ok.inj hfound
          trivial
      | file id =>
          rw [look_file hnode] at hfound
          obtain rfl := Except.ok.inj hfound
          exact hnode
      | link target => exact absurd hnode (hloose target hnode)

theorem shows_find {found : Found} (h : t.find p = .ok found) : t.Shows found :=
  (isCarried_shows t).follow _ (t.look maxLinks) (fun _ _ => shows_look) [] p found h

/-! Answers that stay, up to exceptions. -/

def Stays (exception : Found → Except IoFault Found → Prop) (answer answer' : Except IoFault Found) :
    Prop :=
  ∀ found, answer = .ok found → answer' = .ok found ∨ exception found answer'

/-- Exceptions that are made for no directory, and are kept when slashes follow. -/
structure IsException (exception : Found → Except IoFault Found → Prop) : Prop where
  notDirectory : ∀ place answer, ¬exception (.directory place) answer
  onward : ∀ {next next' : Location → Except IoFault Found} {rest : List Segment},
    (rest.all List.isEmpty = true → ∀ there, next' there = .ok (.directory there)) →
    ∀ {found found' answer}, exception found answer → onward next rest (.ok found) = .ok found' →
      exception found' (onward next' rest answer)

variable {exception : Found → Except IoFault Found → Prop}

theorem IsException.isCarried (h : IsException exception) : IsCarried (Stays exception) where
  fault := nofun
  directory := by
    rintro place _ ⟨⟩
    exact .inl rfl
  onward := by
    intro next next' rest hnext hrest answer answer' hanswer found hfound
    cases answer with
    | error fault => cases hfound
    | ok behind =>
        rcases hanswer behind rfl with rfl | hexception
        · cases behind with
          | directory there => exact hnext there found hfound
          | file place id => exact .inl hfound
          | vacant place closed => exact .inl hfound
        · exact .inr (h.onward hrest hexception hfound)

/-- What lies behind each place stays, up to exceptions. -/
def Keeps (exception : Found → Except IoFault Found → Prop) (t t' : FileTree) : Prop :=
  ∀ place, Stays exception (t.look maxLinks place) (t'.look maxLinks place)

theorem isException_none : IsException fun _ _ => False where
  notDirectory := fun _ _ h => h
  onward := by rintro _ _ _ _ _ _ _ ⟨⟩

theorem look_mono {found : Found} {k : Nat} (h : t.look k place = .ok found) (hk : k ≤ links) :
    t.look links place = .ok found := by
  obtain ⟨extra, rfl⟩ := Nat.le.dest hk
  refine (isException_none.isCarried.look t t extra ?_ place found h).resolve_right id
  intro k _ place hloose found hfound
  exact .inl ((look_eq_of_isLoose k _ hloose rfl).trans hfound)

/-- Trees that differ at one place alone have the same answers, except for what is made an exception
there. -/
theorem keeps_of_differ (h : IsException exception)
    (hsame : ∀ other, other ≠ place → t'.node? other = t.node? other)
    (hplace : ∀ k ≤ maxLinks, Stays exception (t.look k place) (t'.look k place)) :
    Keeps exception t t' := by
  intro other
  refine h.isCarried.look t t' 0 ?_ other
  intro k hk other hloose
  by_cases hother : other = place
  · rw [hother]
    exact hplace k hk
  · rw [Nat.add_zero, look_eq_of_isLoose k k hloose (hsame other hother)]
    exact fun found hfound => .inl hfound

section Keeps

variable {found : Found} (hkeeps : Keeps exception t t') (h : IsException exception)
include hkeeps h

theorem Keeps.find (hfind : t.find p = .ok found) :
    t'.find p = .ok found ∨ exception found (t'.find p) :=
  h.isCarried.follow _ _ hkeeps [] p found hfind

theorem Keeps.find_directory {there : Location} (hfind : t.find p = .ok (.directory there)) :
    t'.find p = .ok (.directory there) :=
  (hkeeps.find h hfind).resolve_right (h.notDirectory _ _)

theorem Keeps.entry (hentry : t.entry p = .ok place) : t'.entry p = .ok place := by
  rw [FileTree.entry] at hentry ⊢
  split at hentry
  · cases hentry
  · rename_i hempty
    rw [if_neg hempty]
    dsimp only at hentry ⊢
    split at hentry
    · rename_i there hwalk
      have hstays := h.isCarried.walk hkeeps (startOf [] p).1
        (Text.dropEndWhile List.isEmpty (startOf [] p).2).dropLast (.directory there) hwalk
      rw [hstays.resolve_right (h.notDirectory _ _)]
      exact hentry
    · cases hentry
    · cases hentry
    · cases hentry

end Keeps

/-! The place that a path names. -/

/-- A path that names a place and does not end in a slash leads to what lies behind it. -/
theorem find_eq_look (hentry : t.entry p = .ok place) (hclosed : isClosed p = false) :
    t.find p = t.look maxLinks place := by
  rw [entry] at hentry
  split at hentry
  · cases hentry
  · rename_i hempty
    rw [find, follow, if_neg hempty]
    have hsteps : Text.dropEndWhile List.isEmpty (startOf [] p).2 = (startOf [] p).2 := by
      apply Text.dropEndWhile_eq_self
      intro segment hlast
      rw [Option.mem_def] at hlast
      rw [isClosed, hlast, Option.some_beq_some, beq_eq_false_iff_ne] at hclosed
      rw [List.isEmpty_eq_false_iff]
      exact hclosed
    rw [hsteps] at hentry
    dsimp only at hentry
    split at hentry
    · rename_i there hwalk
      split at hentry
      · rename_i last hlast
        split at hentry
        · cases hentry
        · rename_i hdots
          obtain rfl := Except.ok.inj hentry
          rw [Bool.or_eq_true, not_or] at hdots
          rw [← List.dropLast_append_getLast? last hlast, walk_append hwalk, walk,
            if_neg hdots.1, if_neg hdots.2]
          cases t.look maxLinks (there ++ [last]) with
          | error fault => rfl
          | ok found => cases found <;> simp [onward, walk]
      · cases hentry
    · cases hentry
    · cases hentry
    · cases hentry

end FileTree

end NamelistCatalog
