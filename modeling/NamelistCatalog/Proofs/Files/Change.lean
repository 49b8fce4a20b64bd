import NamelistCatalog.Proofs.Except
import NamelistCatalog.Proofs.Files.Place

namespace NamelistCatalog

namespace FileTree

variable {t t' : FileTree} {place other here : Location} {id links : Nat} {bytes : List UInt8}
  {segments : List Segment} {p source target : Path}

/-! A place that is free in one tree and a file in another. -/

/-- A free place is taken by a file. A slash does not fit behind a file. -/
def IsTaken (place : Location) (id : Nat) (found : Found) (answer : Except IoFault Found) : Prop :=
  found = .vacant place false ∧ answer = .ok (.file place id) ∨ found = .vacant place true

/-- The place of a file becomes free. -/
def IsFreed (place : Location) (id : Nat) (found : Found) (answer : Except IoFault Found) : Prop :=
  found = .file place id ∧ answer = .ok (.vacant place false)

theorem isException_isTaken (place : Location) (id : Nat) : IsException (IsTaken place id) where
  notDirectory := by
    rintro there answer (⟨hfound, -⟩ | hfound)
    · cases hfound
    · cases hfound
  onward := by
    rintro next next' rest - found found' answer (⟨rfl, rfl⟩ | rfl) hfound
    · cases rest with
      | nil =>
          obtain rfl := Except.ok.inj hfound
          exact .inl ⟨rfl, rfl⟩
      | cons segment rest =>
          rw [onward] at hfound
          split at hfound
          · exact .inr (Except.ok.inj hfound).symm
          · cases hfound
    · rw [onward] at hfound
      split at hfound
      · exact .inr (Except.ok.inj hfound).symm
      · cases hfound

theorem isException_isFreed (place : Location) (id : Nat) : IsException (IsFreed place id) where
  notDirectory := by
    rintro there answer ⟨hfound, -⟩
    cases hfound
  onward := by
    rintro next next' rest - found found' answer ⟨rfl, rfl⟩ hfound
    cases rest with
    | nil =>
        obtain rfl := Except.ok.inj hfound
        exact ⟨rfl, rfl⟩
    | cons segment rest => cases hfound

section Taken

variable (hfree : t.node? place = none) (hfile : t'.node? place = some (.file id))
  (hsame : ∀ other, other ≠ place → t'.node? other = t.node? other)
include hfree hfile hsame

theorem keeps_of_taken : Keeps (IsTaken place id) t t' := by
  apply keeps_of_differ (isException_isTaken place id) hsame
  intro k _ found hfound
  rw [look_vacant hfree] at hfound
  exact .inr (.inl ⟨(Except.ok.inj hfound).symm, look_file hfile⟩)

theorem keeps_of_freed : Keeps (IsFreed place id) t' t := by
  apply keeps_of_differ (isException_isFreed place id) fun other hother => (hsame other hother).symm
  intro k _ found hfound
  rw [look_file hfile] at hfound
  exact .inr ⟨(Except.ok.inj hfound).symm, look_vacant hfree⟩

end Taken

section Erased

variable (hfile : t.node? place = some (.file id))
include hfile

theorem keeps_erase : Keeps (IsFreed place id) t (t.erase place) :=
  keeps_of_freed (node?_erase_self (by rw [hfile]; nofun)) hfile fun _ hother =>
    (node?_erase_ne hother).symm

theorem keeps_of_erase : Keeps (IsTaken place id) (t.erase place) t :=
  keeps_of_taken (node?_erase_self (by rw [hfile]; nofun)) hfile fun _ hother =>
    (node?_erase_ne hother).symm

end Erased

/-! Trees with more directories. -/

/-- The second tree has the same files and links, and directories in places that were free. -/
structure Extends (t t' : FileTree) : Prop where
  node : ∀ place, t'.node? place = t.node? place ∨
    t.node? place = none ∧ t'.node? place = some .directory
  contents : t'.contents = t.contents

theorem Extends.refl (t : FileTree) : Extends t t := ⟨fun _ => .inl rfl, rfl⟩

theorem Extends.directory (h : Extends t t') (hnode : t.node? place = some .directory) :
    t'.node? place = some .directory := by
  rcases h.node place with hsame | ⟨hnone, -⟩
  · rw [hsame, hnode]
  · rw [hnode] at hnone
    cases hnone

theorem Extends.file_iff (h : Extends t t') :
    t'.node? place = some (.file id) ↔ t.node? place = some (.file id) := by
  rcases h.node place with hsame | ⟨hbefore, hafter⟩
  · rw [hsame]
  · rw [hbefore, hafter]
    simp

theorem Extends.content_eq (h : Extends t t') (id : Nat) : t'.content id = t.content id := by
  rw [content, content, h.contents]

theorem Extends.trans {t'' : FileTree} (h : Extends t t') (h' : Extends t' t'') : Extends t t'' := by
  refine ⟨?_, h'.contents.trans h.contents⟩
  intro place
  rcases h.node place with hsame | ⟨hbefore, hafter⟩
  · rw [← hsame]
    exact h'.node place
  · exact .inr ⟨hbefore, h'.directory hafter⟩

theorem extends_set_directory (hnode : t.node? place = none) :
    Extends t (t.set place .directory) := by
  refine ⟨?_, rfl⟩
  intro other
  by_cases hother : other = place
  · subst hother
    exact .inr ⟨hnode, node?_set_directory⟩
  · exact .inl (node?_set_ne hother)

/-- A free place becomes a directory. -/
def IsMade (found : Found) (answer : Except IoFault Found) : Prop :=
  (∃ place closed, found = .vacant place closed) ∧ ∃ there, answer = .ok (.directory there)

theorem isException_isMade : IsException IsMade where
  notDirectory := by
    rintro there answer ⟨⟨place, closed, hfound⟩, -⟩
    cases hfound
  onward := by
    rintro next next' rest hrest found found' answer ⟨⟨place, closed, rfl⟩, there, rfl⟩ hfound
    rw [onward] at hfound
    split at hfound
    · rename_i hend
      exact ⟨⟨place, _, (Except.ok.inj hfound).symm⟩, there, hrest hend there⟩
    · cases hfound

theorem Extends.keeps (h : Extends t t') : Keeps IsMade t t' := by
  intro place
  refine isException_isMade.isCarried.look t t' 0 ?_ place
  intro k _ place hloose
  rcases h.node place with hsame | ⟨hbefore, hafter⟩
  · rw [Nat.add_zero, look_eq_of_isLoose k k hloose hsame]
    exact fun found hfound => .inl hfound
  · intro found hfound
    rw [look_vacant hbefore] at hfound
    exact .inr ⟨⟨place, false, (Except.ok.inj hfound).symm⟩, place, look_directory hafter⟩

theorem Extends.find_file (h : Extends t t') (hfind : t.find p = .ok (.file place id)) :
    t'.find p = .ok (.file place id) := by
  refine (h.keeps.find isException_isMade hfind).resolve_right ?_
  rintro ⟨⟨place, closed, hvacant⟩, -⟩
  cases hvacant

theorem Extends.eq_of_find (h : Extends t t') {found : Found} (hfind : t.find p = .ok found)
    (hfind' : t'.find p = .ok (.file place id)) : found = .file place id := by
  rcases h.keeps.find isException_isMade hfind with hsame | ⟨-, there, hmade⟩
  · exact Except.ok.inj (hsame.symm.trans hfind')
  · rw [hmade] at hfind'
    cases hfind'

theorem extends_makeAlong (t : FileTree) (here : Location) (segments : List Segment) :
    Extends t (t.makeAlong here segments).2 := by
  fun_induction t.makeAlong here segments with
  | case1 t here => exact .refl t
  | case2 t here segment rest hidle ih => exact ih
  | case3 t here segment rest hidle hup ih => exact ih
  | case4 t here segment rest hidle hup place hnode hdot => exact .refl t
  | case5 t here segment rest hidle hup place hnode hdot ih =>
      exact (extends_set_directory hnode).trans ih
  | case6 t here segment rest hidle hup place hnode there hlook ih => exact ih
  | case7 t | case8 t | case9 t => exact .refl t

theorem extends_makeDirectories {result : Except IoFault Unit}
    (h : t.makeDirectories p = (result, t')) : t.Extends t' := by
  have hextends := extends_makeAlong t (startOf [] p).1 (startOf [] p).2
  rwa [← makeDirectories, h] at hextends

theorem exists_walk_of_makeAlong (h : (t.makeAlong here segments).1 = .ok ()) :
    ∃ there, walk ((t.makeAlong here segments).2.look maxLinks) here segments =
      .ok (.directory there) := by
  fun_induction t.makeAlong here segments with
  | case1 t here => exact ⟨here, rfl⟩
  | case2 t here segment rest hidle ih =>
      rw [walk, if_pos hidle]
      exact ih h
  | case3 t here segment rest hidle hup ih =>
      rw [walk, if_neg hidle, if_pos hup]
      exact ih h
  | case5 t here segment rest hidle hup place hnode hdot ih =>
      have hmade := (extends_makeAlong (t.set place .directory) place rest).directory
        node?_set_directory
      rw [walk, if_neg hidle, if_neg hup, look_directory hmade]
      exact ih h
  | case6 t here segment rest hidle hup place hnode there hlook ih =>
      have hstays := (extends_makeAlong t there rest).keeps place _ hlook
      rw [walk, if_neg hidle, if_neg hup,
        hstays.resolve_right (isException_isMade.notDirectory there _)]
      exact ih h
  | case4 | case7 | case8 | case9 => cases h

theorem exists_find_of_makeDirectories (hempty : p.bytes.isEmpty = false)
    (h : t.makeDirectories p = (.ok (), t')) : ∃ there, t'.find p = .ok (.directory there) := by
  obtain ⟨there, hwalk⟩ := exists_walk_of_makeAlong (congrArg Prod.fst h)
  have htree : (t.makeAlong (startOf [] p).1 (startOf [] p).2).2 = t' := congrArg Prod.snd h
  rw [htree] at hwalk
  refine ⟨there, ?_⟩
  rw [find, follow, if_neg (by simp [hempty]), hwalk]

/-! The steps. -/

/-- The place was free. -/
def IsVacant (found : Found) (_ : Except IoFault Found) : Prop :=
  ∃ place closed, found = .vacant place closed

theorem isException_isVacant : IsException IsVacant where
  notDirectory := by
    rintro there answer ⟨place, closed, hfound⟩
    cases hfound
  onward := by
    rintro next next' rest - found found' answer ⟨place, closed, rfl⟩ hfound
    rw [onward] at hfound
    split at hfound
    · exact ⟨place, _, (Except.ok.inj hfound).symm⟩
    · cases hfound

/-- What a path leads to was written, and nothing else: directories and files stay, and other files keep
their bytes. -/
structure Rewrites (p : Path) (t t' : FileTree) : Prop where
  keeps : Keeps IsVacant t t'
  contents : ∀ place id, t.node? place = some (.file id) →
    (∀ other, t.find p ≠ .ok (.file other id)) →
    t'.node? place = some (.file id) ∧ t'.content id = t.content id ∧
      ∀ other, t'.find p ≠ .ok (.file other id)

theorem Rewrites.refl (p : Path) (t : FileTree) : Rewrites p t t :=
  ⟨fun _ _ hfound => .inl hfound, fun _ _ hnode hother => ⟨hnode, rfl, hother⟩⟩

theorem Rewrites.trans {t'' : FileTree} (h : Rewrites p t t') (h' : Rewrites p t' t'') :
    Rewrites p t t'' := by
  constructor
  · intro place found hfound
    rcases h.keeps place found hfound with hsame | ⟨at_, closed, rfl⟩
    · exact h'.keeps place found hsame
    · exact .inr ⟨at_, closed, rfl⟩
  · intro place id hnode hother
    obtain ⟨hnode', hcontent, hother'⟩ := h.contents place id hnode hother
    obtain ⟨hnode'', hcontent', hother''⟩ := h'.contents place id hnode' hother'
    exact ⟨hnode'', hcontent'.trans hcontent, hother''⟩

theorem Rewrites.find_file (h : Rewrites p t t') {q : Path} (hfind : t.find q = .ok (.file place id)) :
    t'.find q = .ok (.file place id) := by
  refine (h.keeps.find isException_isVacant hfind).resolve_right ?_
  rintro ⟨place, closed, hvacant⟩
  cases hvacant

theorem look_setContent : (t.setContent id bytes).look links = t.look links := by
  induction links with
  | zero =>
      funext place
      rw [look.eq_def, look.eq_def, node?_setContent]
  | succ links ih =>
      funext place
      rw [look.eq_def, look.eq_def, node?_setContent]
      simp only [ih]

theorem find_setContent : (t.setContent id bytes).find p = t.find p := by
  rw [find, find, look_setContent]

theorem entry_setContent : (t.setContent id bytes).entry p = t.entry p := by
  rw [entry, entry, look_setContent]

theorem write_eq_ok (h : t.write p bytes = .ok t') :
    (∃ place id, t.find p = .ok (.file place id) ∧ t' = t.setContent id bytes) ∨
      ∃ place, t.find p = .ok (.vacant place false) ∧
        t' = (t.set place (.file t.freshId)).setContent t.freshId bytes := by
  rw [write] at h
  split at h
  · rename_i place id hfind
    exact .inl ⟨place, id, hfind, (Except.ok.inj h).symm⟩
  · rename_i place hfind
    exact .inr ⟨place, hfind, (Except.ok.inj h).symm⟩
  · cases h
  · cases h
  · cases h

theorem keeps_create (id : Nat) (bytes : List UInt8) (hfree : t.node? place = none) :
    Keeps (IsTaken place id) t ((t.set place (.file id)).setContent id bytes) :=
  keeps_of_taken hfree (node?_set_self (by rw [hfree]; nofun)) fun _ => node?_set_ne

theorem keeps_of_create (id : Nat) (bytes : List UInt8) (hfree : t.node? place = none) :
    Keeps (IsFreed place id) ((t.set place (.file id)).setContent id bytes) t :=
  keeps_of_freed hfree (node?_set_self (by rw [hfree]; nofun)) fun _ => node?_set_ne

theorem find_create (hfind : t.find p = .ok (.vacant place false)) :
    ((t.set place (.file id)).setContent id bytes).find p = .ok (.file place id) := by
  have hkeeps := keeps_create id bytes (shows_find hfind)
  rcases hkeeps.find (isException_isTaken place id) hfind with
    hsame | ⟨-, hfile⟩ | hclosed
  · have hnode : _ = none := shows_find hsame
    rw [node?_setContent, node?_set_self (by rw [shows_find hfind]; nofun)] at hnode
    cases hnode
  · exact hfile
  · cases hclosed

theorem find_write (h : t.write p bytes = .ok t') :
    ∃ place id, t'.find p = .ok (.file place id) ∧ t'.content id = bytes := by
  rcases write_eq_ok h with ⟨place, id, hfind, rfl⟩ | ⟨place, hfind, rfl⟩
  · exact ⟨place, id, find_setContent.trans hfind, content_setContent_self⟩
  · exact ⟨place, _, find_create hfind, content_setContent_self⟩

theorem rewrites_write (h : t.write p bytes = .ok t') : Rewrites p t t' := by
  rcases write_eq_ok h with ⟨place, id, hfind, rfl⟩ | ⟨place, hfind, rfl⟩
  · constructor
    · intro other found hfound
      rw [look_setContent]
      exact .inl hfound
    · intro other i hnode hother
      have hi : i ≠ id := by
        rintro rfl
        exact hother place hfind
      exact ⟨hnode, content_setContent_ne hi, fun other => by
        rw [find_setContent]
        exact hother _⟩
  · have hfree : t.node? place = none := shows_find hfind
    constructor
    · intro other found hfound
      rcases keeps_create t.freshId bytes hfree other found hfound with hsame | ⟨rfl, -⟩ | rfl
      · exact .inl hsame
      · exact .inr ⟨place, false, rfl⟩
      · exact .inr ⟨place, true, rfl⟩
    · intro other i hnode hother
      have hi : i ≠ t.freshId := (lt_freshId hnode).ne
      have hplace : other ≠ place := by
        rintro rfl
        rw [hfree] at hnode
        cases hnode
      refine ⟨?_, ?_, ?_⟩
      · rw [node?_setContent, node?_set_ne hplace, hnode]
      · rw [content_setContent_ne hi, content_set]
      · intro other hfile
        rw [find_create hfind] at hfile
        exact hi (Found.file.inj (Except.ok.inj hfile)).2.symm

theorem createTemporary_eq_ok {temporary : Path} (h : t.createTemporary p = .ok (temporary, t')) :
    ∃ place, t.entry temporary = .ok place ∧ t.find temporary = .ok (.vacant place false) ∧
      t.isVacantAt p place = false ∧ t.isVacantAt p.backup place = false ∧
      t' = (t.set place (.file t.freshId)).setContent t.freshId [] := by
  rw [createTemporary] at h
  split at h
  · rename_i free hfree
    obtain ⟨written, hwrite, heq⟩ := map_eq_ok_iff.mp h
    obtain ⟨rfl, rfl⟩ := Prod.mk.inj heq
    have hfresh := List.find?_some hfree
    rw [isFresh] at hfresh
    split at hfresh
    · rename_i place other hentry hfind
      simp only [Bool.and_eq_true, beq_iff_eq, Bool.not_eq_true'] at hfresh
      obtain ⟨⟨rfl, htarget⟩, hbackup⟩ := hfresh
      rw [write, hfind] at hwrite
      exact ⟨place, hentry, hfind, htarget, hbackup, (Except.ok.inj hwrite).symm⟩
    · cases hfresh
  · cases h

theorem copy_eq_ok (h : t.copy source target = .ok t') :
    ∃ place id emptied, t.find source = .ok (.file place id) ∧ t.write target [] = .ok emptied ∧
      emptied.write target (emptied.content id) = .ok t' := by
  rw [copy] at h
  obtain ⟨id, hid, h⟩ := bind_eq_ok_iff.mp h
  obtain ⟨emptied, hemptied, h⟩ := bind_eq_ok_iff.mp h
  rw [fileId] at hid
  split at hid
  · rename_i place other hfind
    obtain rfl := Except.ok.inj hid
    exact ⟨place, other, emptied, hfind, hemptied, h⟩
  · cases hid
  · cases hid
  · cases hid

theorem rewrites_copy (h : t.copy source target = .ok t') : Rewrites target t t' := by
  obtain ⟨place, id, emptied, -, hemptied, hfilled⟩ := copy_eq_ok h
  exact (rewrites_write hemptied).trans (rewrites_write hfilled)

theorem find_copy (h : t.copy source target = .ok t') (hsource : t.find source = .ok (.file place id))
    (hother : ∀ other, t.find target ≠ .ok (.file other id)) :
    ∃ there copied, t'.find target = .ok (.file there copied) ∧ t'.content copied = t.content id := by
  obtain ⟨place', id', emptied, hfind, hemptied, hfilled⟩ := copy_eq_ok h
  obtain ⟨rfl, rfl⟩ := Found.file.inj (Except.ok.inj (hsource.symm.trans hfind))
  have hcontent := ((rewrites_write hemptied).contents _ _ (shows_find hsource) hother).2.1
  rw [← hcontent]
  exact find_write hfilled

theorem remove_eq (hentry : t.entry p = .ok place) :
    t.remove p = t ∨ t.remove p = t.erase place := by
  rw [remove, hentry]
  dsimp only
  split
  · exact .inl rfl
  · exact .inr rfl

theorem rename_eq_ok (h : t.rename source target = .ok t') (hentry : t.entry source = .ok place)
    (hfile : t.node? place = some (.file id)) :
    ∃ after, t.entry target = .ok after ∧ isClosed target = false ∧
      t.node? after ≠ some .directory ∧
      (t.node? after = some (.file id) ∨ t' = (t.erase place).set after (.file id)) := by
  rw [rename, hentry] at h
  obtain ⟨before, hbefore, h⟩ := bind_eq_ok_iff.mp h
  obtain rfl := Except.ok.inj hbefore
  rw [hfile] at h
  obtain ⟨after, hafter, h⟩ := bind_eq_ok_iff.mp h
  refine ⟨after, hafter, ?_⟩
  split at h
  · cases h
  · rename_i hdirectory
    split at h
    · cases h
    · rename_i hclosed
      rw [Bool.or_eq_true, not_or, Bool.not_eq_true, Bool.not_eq_true] at hclosed
      refine ⟨hclosed.2, hdirectory, ?_⟩
      split at h
      · rename_i hsame
        left
        revert hsame
        cases t.node? after with
        | none => nofun
        | some node =>
            cases node with
            | file other =>
                intro hsame
                rw [FileNode.isSameFile, beq_iff_eq] at hsame
                rw [hsame]
            | directory => nofun
            | link target => nofun
      · exact .inr (Except.ok.inj h).symm

/-- What lies behind a place may go, unless it is a directory. -/
def IsReplaced (t : FileTree) (place : Location) (found : Found) (_ : Except IoFault Found) : Prop :=
  (∃ other closed, found = .vacant other closed) ∨
    ∃ other id, found = .file other id ∧ t.look maxLinks place = .ok (.file other id)

theorem isException_isReplaced (t : FileTree) (place : Location) :
    IsException (IsReplaced t place) where
  notDirectory := by
    rintro there answer (⟨other, closed, hfound⟩ | ⟨other, id, hfound, -⟩)
    · cases hfound
    · cases hfound
  onward := by
    rintro next next' rest - found found' answer (⟨other, closed, rfl⟩ | ⟨other, id, rfl, hlook⟩) hfound
    · rw [onward] at hfound
      split at hfound
      · exact .inl ⟨other, _, (Except.ok.inj hfound).symm⟩
      · cases hfound
    · rw [onward] at hfound
      split at hfound
      · exact .inr ⟨other, id, (Except.ok.inj hfound).symm, hlook⟩
      · cases hfound

theorem keeps_of_replaced (hsame : ∀ other, other ≠ place → t'.node? other = t.node? other)
    (hdirectory : ∀ there, t.look maxLinks place ≠ .ok (.directory there)) :
    Keeps (IsReplaced t place) t t' := by
  apply keeps_of_differ (isException_isReplaced t place) hsame
  intro k hk found hfound
  have hbehind := look_mono hfound hk
  right
  cases found with
  | directory there => exact absurd hbehind (hdirectory there)
  | file other id => exact .inr ⟨other, id, rfl, hbehind⟩
  | vacant other closed => exact .inl ⟨other, closed, rfl⟩

/-- A path does not name a link to a directory. -/
def NotLinked (t : FileTree) (p : Path) : Prop :=
  ∀ place target there, t.entry p = .ok place → t.node? place = some (.link target) →
    t.find p ≠ .ok (.directory there)

/-- A file was moved over what a path names, which is no directory. -/
structure Moved (id : Nat) (target : Path) (t t' : FileTree) : Prop where
  leads : ∃ after, t'.entry target = .ok after ∧ t'.find target = .ok (.file after id)
  contents : t'.contents = t.contents
  directory : ∀ p there, t.find p = .ok (.directory there) → t'.find p = .ok (.directory there)
  file : ∀ p place other, t.find p = .ok (.file place other) → other ≠ id →
    t.find target ≠ .ok (.file place other) → t'.find p = .ok (.file place other)

theorem moved_of_rename (h : t.rename source target = .ok t') (hentry : t.entry source = .ok place)
    (hfile : t.node? place = some (.file id)) (hlink : t.NotLinked target)
    (hother : ∀ other, t.find target ≠ .ok (.file other id)) : Moved id target t t' := by
  obtain ⟨after, hafter, hclosed, hnode, hmoved⟩ := rename_eq_ok h hentry hfile
  have hfind := find_eq_look hafter hclosed
  have hdirectory : ∀ there, t.find target ≠ .ok (.directory there) := by
    intro there hthere
    cases hold : t.node? after with
    | none =>
        rw [hfind, look_vacant hold] at hthere
        cases hthere
    | some node =>
        cases node with
        | directory => exact hnode hold
        | file other =>
            rw [hfind, look_file hold] at hthere
            cases hthere
        | link other => exact hlink after other there hafter hold hthere
  have htree : t' = (t.erase place).set after (.file id) := by
    refine hmoved.resolve_left fun hsame => ?_
    rw [look_file hsame] at hfind
    exact hother after hfind
  -- First the old name goes. The target still names its place, and leads to no directory.
  have herased := keeps_erase hfile
  have hback := keeps_of_erase hfile
  have hafter' := herased.entry (isException_isFreed place id) hafter
  have hfind' := find_eq_look hafter' hclosed
  have hnode' : (t.erase place).node? after ≠ some .directory := by
    by_cases hsame : after = place
    · rw [hsame, node?_erase_self (by rw [hfile]; nofun)]
      nofun
    · rwa [node?_erase_ne hsame]
  have hreplaced : Keeps (IsReplaced (t.erase place) after) (t.erase place) t' := by
    rw [htree]
    apply keeps_of_replaced fun _ => node?_set_ne
    intro there hlook
    rw [← hfind'] at hlook
    exact hdirectory there (hback.find_directory (isException_isTaken place id) hlook)
  have hexception := isException_isReplaced (t.erase place) after
  have hentry' := hreplaced.entry hexception hafter'
  refine ⟨⟨after, hentry', ?_⟩, ?_, ?_, ?_⟩
  · rw [find_eq_look hentry' hclosed, htree]
    exact look_file (node?_set_self hnode')
  · rw [htree]
    rfl
  · intro p there hp
    exact hreplaced.find_directory hexception (herased.find_directory (isException_isFreed place id) hp)
  · intro p there other hp hne htarget
    rcases herased.find (isException_isFreed place id) hp with hsame | ⟨hfound, -⟩
    · rcases hreplaced.find hexception hsame with hstays | ⟨other', closed, hfound⟩ | ⟨_, _, hfound, hlook⟩
      · exact hstays
      · cases hfound
      · obtain ⟨rfl, rfl⟩ := Found.file.inj hfound
        rw [← hfind'] at hlook
        rcases hback.find (isException_isTaken place id) hlook with hlook | ⟨hvacant, -⟩ | hvacant
        · exact absurd hlook htarget
        · cases hvacant
        · cases hvacant
    · exact absurd (Found.file.inj hfound).2 hne

end FileTree

end NamelistCatalog
