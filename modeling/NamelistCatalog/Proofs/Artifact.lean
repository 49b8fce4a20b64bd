import NamelistCatalog.Proofs.Files.Mishap
import NamelistCatalog.Proofs.Files.Path
import NamelistCatalog.Proofs.Store.Classification
import NamelistCatalog.Proofs.Store.Image
import NamelistCatalog.Proofs.Store.RoundTrip

namespace NamelistCatalog

/-- The path leads to the same file in both trees, or to none in either, and that file has the same
bytes. A path that leads nowhere, for want of a directory, may come to lead to a file that was there
before. -/
structure FileTree.SameFile (p : Path) (t t' : FileTree) : Prop where
  leads : ∀ found, t.find p = .ok found → ∀ place id,
    t'.find p = .ok (.file place id) ↔ found = .file place id
  unchanged : ∀ place id, t'.find p = .ok (.file place id) →
    t.node? place = some (.file id) ∧ t'.content id = t.content id

/-- What a published catalog is good for: it reads back, and what is reported as a backup holds what the
target held before. -/
structure Published.Stands [Sqlite] (path : Path) (c : Catalog) (t : FileTree) (published : Published)
    (t' : FileTree) : Prop where
  path_eq : published.path = path
  reads : Sqlite.Opens path → t'.IsAlone path → c.info.schemaVersion = currentSchema →
    c.HasTrimmedVersions → c.size ≤ Text.maxCount →
    (Artifact.read path : ExceptT StoreError (StateM FileTree) Catalog).run t' = (.ok c, t')
  faithful : Sqlite.Opens path → t'.IsAlone path →
    ∀ d, ¬Sha256.Collide c.trimVersions.hashedBytes c.hashedBytes →
    (Artifact.read path : ExceptT StoreError (StateM FileTree) Catalog).run t' = (.ok d, t') → d = c
  backup : ∀ kept, published.backup = some kept → kept = path.backup ∧
    ∃ place id, t.node? place = some (.file id) ∧ t'.read kept = .ok (t.content id) ∧
      (t.makeDirectories path.directory).2.find path = .ok (.file place id) ∧
      ∀ found, t.find path = .ok found → found = .file place id

namespace Artifact

open FaultyDisk

/-- A path at which an artifact can be published in this tree: it does not name a link to a directory,
the file that is there is not also that of its backup, and the engine puts a store into the temporary
file and not elsewhere. -/
structure IsTarget [Sqlite] (t : FileTree) (path : Path) (keep : Bool) : Prop where
  notLinked : t.NotLinked path
  backup : keep = true → ∀ place other id, t.find path = .ok (.file place id) →
    t.find path.backup ≠ .ok (.file other id)
  temporary : ∀ temporary t', t.createTemporary path = .ok (temporary, t') →
    Sqlite.Opens temporary ∧ t'.IsAlone temporary

variable {mishaps : DiskCall → Option Mishap} {t t₁ t' : FileTree} {path temporary : Path}
  {c : Catalog} {keep : Bool} {place : Location} {id : Nat} {bytes : List UInt8}

theorem storeOf_eq (c : Catalog) : storeOf c = .ok (Store.ofCatalog c) := by
  rw [storeOf, Store.write_empty]
  rfl

/-! Reading on a disk where no step fails. -/

theorem run_read_of_load [Sqlite] {s : Store} (hkind : t.kind path = .ok .file)
    (hload : Sqlite.load t path = .ok s) :
    (read path : ExceptT StoreError (StateM FileTree) Catalog).run t = (s.read, t) := by
  have hlookup : (liftM (Disk.kind path : StateM FileTree _) :
      ExceptT StoreError (StateM FileTree) _).run t = (.ok (.ok .file), t) := by
    change (Except.ok (t.kind path), t) = _
    rw [hkind]
  have hstep : (liftM (Storage.load path : StateM FileTree _) :
      ExceptT StoreError (StateM FileTree) _).run t = (.ok (.ok s), t) := by
    change (Except.ok (Sqlite.load t path), t) = _
    rw [hload]
  have hstore : (store path : ExceptT StoreError (StateM FileTree) Store).run t = (.ok s, t) := by
    rw [store, run_bind, hlookup]
    dsimp only
    rw [run_bind, hstep]
    rfl
  rw [read, run_bind, hstore]
  rfl

/-! Publishing on a disk where steps may fail. -/

/-- The path leads to the same file, with the same bytes, or to none in either tree. -/
structure Same (path : Path) (t t' : FileTree) : Prop where
  file_iff : ∀ place id, t'.find path = .ok (.file place id) ↔ t.find path = .ok (.file place id)
  content : ∀ place id, t.find path = .ok (.file place id) → t'.content id = t.content id

theorem Same.refl (path : Path) (t : FileTree) : Same path t t :=
  ⟨fun _ _ => Iff.rfl, fun _ _ _ => rfl⟩

/-- All is prepared for the move: the temporary file is a new one, and the target is as before. -/
structure Prepared (path temporary : Path) (place : Location) (id : Nat) (t t' : FileTree) : Prop
    extends Same path t t' where
  notLinked : t'.NotLinked path
  found : t'.find temporary = .ok (.file place id)
  entry : t'.entry temporary = .ok place
  fresh : t.freshId ≤ id
  directory : ∀ p there, t.find p = .ok (.directory there) → t'.find p = .ok (.directory there)

namespace Prepared

variable (h : Prepared path temporary place id t t')
include h

theorem find_ne (other : Location) : t'.find path ≠ .ok (.file other id) := by
  intro hfind
  have hbelow := FileTree.lt_freshId (FileTree.shows_find ((h.file_iff other id).mp hfind))
  exact Nat.not_lt.mpr h.fresh hbelow

theorem setContent (bytes : List UInt8) :
    Prepared path temporary place id t (t'.setContent id bytes) where
  file_iff other i := by rw [FileTree.find_setContent, h.file_iff]
  content other i hfind := by
    have hne : i ≠ id := by
      rintro rfl
      exact h.find_ne other ((h.file_iff other i).mpr hfind)
    rw [FileTree.content_setContent_ne hne, h.content other i hfind]
  notLinked other target there := by
    rw [FileTree.entry_setContent, FileTree.node?_setContent, FileTree.find_setContent]
    exact h.notLinked other target there
  found := by rw [FileTree.find_setContent, h.found]
  entry := by rw [FileTree.entry_setContent, h.entry]
  fresh := h.fresh
  directory p there hfind := by rw [FileTree.find_setContent, h.directory p there hfind]

theorem rewrites {p : Path} {other : Location} {i : Nat} {t'' : FileTree}
    (hfile : t'.find path = .ok (.file other i)) (hne : ∀ other, t'.find p ≠ .ok (.file other i))
    (hrewrites : FileTree.Rewrites p t' t'') : Prepared path temporary place id t t'' := by
  have hfile' := hrewrites.find_file hfile
  have hexception := FileTree.isException_isVacant
  refine ⟨⟨?_, ?_⟩, ?_, hrewrites.find_file h.found, hrewrites.keeps.entry hexception h.entry,
    h.fresh, fun p there hfind =>
      hrewrites.keeps.find_directory hexception (h.directory p there hfind)⟩
  · intro place' id'
    rw [← h.file_iff, hfile, hfile']
  · intro place' id' hfind
    have hsame := (h.file_iff place' id').mpr hfind
    obtain ⟨rfl, rfl⟩ := Found.file.inj (Except.ok.inj (hfile.symm.trans hsame))
    rw [(hrewrites.contents _ _ (FileTree.shows_find hfile) hne).2.1, h.content _ _ hfind]
  · intro place' target there _ _ hfind
    rw [hfile'] at hfind
    cases hfind

theorem same_remove : Same path t (t'.remove temporary) := by
  rcases FileTree.remove_eq h.entry with hsame | herased
  · rw [hsame]
    exact h.toSame
  · have hnode : t'.node? place = some (.file id) := FileTree.shows_find h.found
    rw [herased]
    constructor
    · intro other i
      rw [← h.file_iff]
      constructor
      · intro hfind
        rcases (FileTree.keeps_of_erase hnode).find (FileTree.isException_isTaken place id) hfind with
          hstays | ⟨hvacant, -⟩ | hvacant
        · exact hstays
        · cases hvacant
        · cases hvacant
      · intro hfind
        refine ((FileTree.keeps_erase hnode).find
          (FileTree.isException_isFreed place id) hfind).resolve_right ?_
        rintro ⟨hsame, -⟩
        obtain ⟨rfl, rfl⟩ := Found.file.inj hsame
        exact h.find_ne _ hfind
    · exact h.content

end Prepared

/-- A temporary file is new and empty, and neither the target nor its backup leads there. -/
theorem prepared_of_createTemporary (hlink : t.NotLinked path)
    (h : t.createTemporary path = .ok (temporary, t')) :
    ∃ place id, Prepared path temporary place id t t' ∧ t'.content id = [] ∧
      ∀ other i, t'.find path.backup = .ok (.file other i) →
        t.find path.backup = .ok (.file other i) := by
  obtain ⟨place, hentry, hfind, htarget, hbackup, rfl⟩ := FileTree.createTemporary_eq_ok h
  have hfree : t.node? place = none := FileTree.shows_find hfind
  have hkeeps := FileTree.keeps_create t.freshId [] hfree
  have hback := FileTree.keeps_of_create t.freshId [] hfree
  have htaken := FileTree.isException_isTaken place t.freshId
  have hfreed := FileTree.isException_isFreed place t.freshId
  -- A path that led to the free place is the only one that leads to the new file.
  have hfile : ∀ {p : Path}, t.isVacantAt p place = false → ∀ other i,
      ((t.set place (.file t.freshId)).setContent t.freshId []).find p = .ok (.file other i) →
      t.find p = .ok (.file other i) := by
    intro p hp other i hfound
    refine (hback.find hfreed hfound).resolve_right ?_
    rintro ⟨-, hvacant⟩
    simp [FileTree.isVacantAt, hvacant] at hp
  refine ⟨place, t.freshId, ⟨⟨?_, ?_⟩, ?_, ?_, ?_, Nat.le_refl _, ?_⟩,
    FileTree.content_setContent_self, hfile hbackup⟩
  · intro other i
    refine ⟨hfile htarget other i, fun hfound => (hkeeps.find htaken hfound).resolve_right ?_⟩
    rintro (⟨hvacant, -⟩ | hvacant)
    · cases hvacant
    · cases hvacant
  · intro other i hfound
    have hbelow := FileTree.lt_freshId (FileTree.shows_find hfound)
    rw [FileTree.content_setContent_ne hbelow.ne, FileTree.content_set]
  · intro other target there hother hnode hdirectory
    refine hlink other target there (hback.entry hfreed hother) ?_ (hback.find_directory hfreed hdirectory)
    have hne : other ≠ place := by
      rintro rfl
      rw [FileTree.node?_setContent, FileTree.node?_set_self (by rw [hfree]; nofun)] at hnode
      cases hnode
    rwa [FileTree.node?_setContent, FileTree.node?_set_ne hne] at hnode
  · exact FileTree.find_create hfind
  · exact hkeeps.entry htaken hentry
  · exact fun p there => hkeeps.find_directory htaken

/-- What is reported as a backup, if anything is, holds what a path led to, and neither the temporary
file nor the target is that copy. -/
def Keeps (path : Path) (id : Nat) (t : FileTree) (backup : Option Path) (t' : FileTree) : Prop :=
  backup = none ∨ backup = some path.backup ∧
    ∃ place previous other copied, t.find path = .ok (.file place previous) ∧
      t'.find path.backup = .ok (.file other copied) ∧ t'.content copied = t.content previous ∧
      copied ≠ id ∧ t'.find path ≠ .ok (.file other copied)

/-- The file at a path was replaced by one that holds these bytes. -/
structure Replaced (path : Path) (bytes : List UInt8) (t : FileTree) (backup : Option Path)
    (t' : FileTree) : Prop where
  new : ∃ place id, t'.entry path = .ok place ∧ t'.find path = .ok (.file place id) ∧
    t'.content id = bytes
  keeps : backup = none ∨ backup = some path.backup ∧
    ∃ place previous, t.find path = .ok (.file place previous) ∧
      t'.read path.backup = .ok (t.content previous)
  directory : ∀ p there, t.find p = .ok (.directory there) → t'.find p = .ok (.directory there)

theorem Prepared.replaced {backup : Option Path} (h : Prepared path temporary place id t t₁)
    (hcontent : t₁.content id = bytes) (hkeeps : Keeps path id t backup t₁)
    (hrename : t₁.rename temporary path = .ok t') : Replaced path bytes t backup t' := by
  have hmoved := FileTree.moved_of_rename hrename h.entry (FileTree.shows_find h.found)
    h.notLinked h.find_ne
  have hbytes : ∀ i, t'.content i = t₁.content i := by
    intro i
    rw [FileTree.content, hmoved.contents, FileTree.content]
  obtain ⟨after, hentry, hfind⟩ := hmoved.leads
  refine ⟨⟨after, id, hentry, hfind, (hbytes id).trans hcontent⟩, ?_, ?_⟩
  · refine hkeeps.imp_right ?_
    rintro ⟨hsome, place', previous, other, copied, hprevious, hbackup, hcopied, hne, htarget⟩
    refine ⟨hsome, place', previous, hprevious, ?_⟩
    rw [FileTree.read, FileTree.fileId, hmoved.file _ other copied hbackup hne htarget, ← hcopied,
      ← hbytes]
    rfl
  · exact fun p there hthere => hmoved.directory p there (h.directory p there hthere)

section Steps

variable {failed : FileTree → Prop}

theorem ends_keepPrevious {ok : Option Path → FileTree → Prop} (hnone : ok none t)
    (hcopy : ∀ place id t', keep = true → t.find path = .ok (.file place id) →
      t.copy path path.backup = .ok t' → ok (some path.backup) t')
    (hfailed : ∀ place id t', keep = true → t.find path = .ok (.file place id) →
      FileTree.Rewrites path.backup t t' → failed t') :
    Ends mishaps t (keepPrevious path keep) ok failed := by
  apply Ends.bind
  apply ends_isFile
  intro answer hanswer
  split
  · rename_i hboth
    rw [Bool.and_eq_true] at hboth
    obtain ⟨place, id, hfind⟩ := hanswer hboth.2
    apply Ends.bind
    apply ends_copy
    · exact fun t' => hcopy place id t' hboth.1 hfind
    · exact fun t' => hfailed place id t' hboth.1 hfind
  · exact hnone

theorem ends_move {ok : Option Path → FileTree → Prop} {backup : Option Path}
    (h : Prepared path temporary place id t t₁) (hcontent : t₁.content id = bytes)
    (hkeeps : Keeps path id t backup t₁)
    (hok : ∀ t', Replaced path bytes t backup t' → ok backup t') (hfailed : failed t₁) :
    Ends mishaps t₁ (do step (Disk.rename temporary path); pure backup) ok failed := by
  apply Ends.bind
  apply ends_rename
  · exact fun t' hrename => ends_pure (hok t' (h.replaced hcontent hkeeps hrename))
  · exact hfailed

theorem ends_keepAndMove {ok : Option Path → FileTree → Prop}
    (h : Prepared path temporary place id t t₁) (hcontent : t₁.content id = bytes)
    (hbackup : ∀ other i, t₁.find path.backup = .ok (.file other i) →
      t.find path.backup = .ok (.file other i))
    (hapart : keep = true → ∀ place other i, t.find path = .ok (.file place i) →
      t.find path.backup ≠ .ok (.file other i))
    (hok : ∀ backup t', Replaced path bytes t backup t' → ok backup t')
    (hfailed : ∀ t', Prepared path temporary place id t t' → failed t') :
    Ends mishaps t₁ (do
      let backup ← keepPrevious path keep
      step (Disk.rename temporary path)
      pure backup) ok failed := by
  have hother : keep = true → ∀ place i, t₁.find path = .ok (.file place i) → ∀ other,
      t₁.find path.backup ≠ .ok (.file other i) := by
    intro hkeep place i hfind other hfound
    exact hapart hkeep place other i ((h.file_iff place i).mp hfind) (hbackup other i hfound)
  have htemporary : ∀ other, t₁.find path.backup ≠ .ok (.file other id) := by
    intro other hfound
    have hbelow := FileTree.lt_freshId (FileTree.shows_find (hbackup other id hfound))
    exact Nat.not_lt.mpr h.fresh hbelow
  apply Ends.bind
  apply ends_keepPrevious
  · exact ends_move h hcontent (.inl rfl) (hok none) (hfailed t₁ h)
  · intro place' previous t₂ hkeep hfind hcopy
    have hne := hother hkeep place' previous hfind
    have hrewrites := FileTree.rewrites_copy hcopy
    have h' := h.rewrites hfind hne hrewrites
    have hnew := hrewrites.contents place id (FileTree.shows_find h.found) htemporary
    have hold := hrewrites.contents place' previous (FileTree.shows_find hfind) hne
    obtain ⟨other, copied, hcopied, hbytes⟩ := FileTree.find_copy hcopy hfind hne
    apply ends_move h' (hnew.2.1.trans hcontent) ?_ (hok _) (hfailed t₂ h')
    have hprevious := (h.file_iff place' previous).mp hfind
    refine .inr ⟨rfl, place', previous, other, copied, hprevious, hcopied, ?_, ?_, ?_⟩
    · rw [hbytes, h.content _ _ hprevious]
    · rintro rfl
      exact hnew.2.2 other hcopied
    · rw [hrewrites.find_file hfind]
      intro hsame
      obtain ⟨rfl, rfl⟩ := Found.file.inj (Except.ok.inj hsame)
      exact hold.2.2 _ hcopied
  · intro place' previous t₂ hkeep hfind hrewrites
    exact hfailed t₂ (h.rewrites hfind (hother hkeep place' previous hfind) hrewrites)

theorem ends_replace [Sqlite] {ok : Option Path → FileTree → Prop}
    (h : Prepared path temporary place id t t₁) (hempty : t₁.content id = [])
    (hopens : Sqlite.Opens temporary) (halone : t₁.IsAlone temporary)
    (hbackup : ∀ other i, t₁.find path.backup = .ok (.file other i) →
      t.find path.backup = .ok (.file other i))
    (hapart : keep = true → ∀ place other i, t.find path = .ok (.file place i) →
      t.find path.backup ≠ .ok (.file other i))
    (hok : ∀ backup t', Sqlite.Fits (Store.ofCatalog c) →
      Replaced path (Sqlite.image (Store.ofCatalog c)) t backup t' → ok backup t')
    (hfailed : ∀ t', Prepared path temporary place id t t' → failed t') :
    Ends mishaps t₁ (replace temporary path c keep) ok failed := by
  apply Ends.bind
  apply ends_ofExcept ?_ (hfailed t₁ h)
  rintro s hs
  obtain rfl := Except.ok.inj ((storeOf_eq c).symm.trans hs)
  apply Ends.bind
  apply ends_save hopens h.found hempty halone ?_ (hfailed t₁ h) fun bytes =>
    hfailed _ (h.setContent bytes)
  intro hfits
  have h' := h.setContent (Sqlite.image (Store.ofCatalog c))
  apply Ends.bind
  apply ends_sync ?_ fun _ => hfailed _ h'
  apply ends_keepAndMove h' FileTree.content_setContent_self ?_ hapart (hok · · hfits) hfailed
  intro other i
  rw [FileTree.find_setContent]
  exact hbackup other i

theorem ends_syncDirectory {ok : Unit → FileTree → Prop} {there : Location}
    (hdirectory : t.find path = .ok (.directory there)) (hok : ok () t)
    (hfailed : mishaps (.sync path) ≠ none → failed t) :
    Ends mishaps t (step (Disk.sync path)) ok failed := by
  apply ends_sync hok
  intro hfault
  apply hfailed
  intro hnone
  obtain ⟨fault, hkind⟩ := hfault hnone
  rw [FileTree.kind, hdirectory] at hkind
  cases hkind

/-- Up to the move the target is as before, and after it there is only its directory to synchronize. -/
theorem ends_publish [Sqlite] {ok : Published → FileTree → Prop}
    (htarget : ∀ t₁, t.makeDirectories path.directory = (.ok (), t₁) → IsTarget t₁ path keep)
    (hok : ∀ backup t₁ t', t.makeDirectories path.directory = (.ok (), t₁) →
      Sqlite.Fits (Store.ofCatalog c) → Replaced path (Sqlite.image (Store.ofCatalog c)) t₁ backup t' → ok ⟨path, backup⟩ t')
    (hfailed : ∀ t₁ t', t.Extends t₁ → Same path t₁ t' → failed t')
    (hsync : ∀ t', mishaps (.sync path.directory) ≠ none → failed t') :
    Ends mishaps t (publish path c keep) ok failed := by
  apply Ends.bind
  apply ends_makeDirectories
  · intro t₁ hmade
    have hextends : t.Extends t₁ := FileTree.extends_makeDirectories hmade
    obtain ⟨there, hdirectory⟩ :=
      FileTree.exists_find_of_makeDirectories path.isEmpty_directory hmade
    have h := htarget t₁ hmade
    apply Ends.bind
    apply ends_createTemporary
    · intro temporary t₂ hcreate
      obtain ⟨place, id, hprepared, hempty, hbackup⟩ :=
        prepared_of_createTemporary h.notLinked hcreate
      obtain ⟨hopens, halone⟩ := h.temporary temporary t₂ hcreate
      apply Ends.bind
      apply Ends.orDiscard
      apply ends_replace hprepared hempty hopens halone hbackup h.backup
      · intro backup t' hfits hreplaced
        apply Ends.bind
        apply ends_syncDirectory (hreplaced.directory _ there hdirectory)
        · exact ends_pure (hok backup t₁ t' hmade hfits hreplaced)
        · exact hsync t'
      · intro t' hprepared'
        exact ⟨hfailed t₁ t' hextends hprepared'.toSame,
          hfailed t₁ _ hextends hprepared'.same_remove⟩
    · exact hfailed t₁ t₁ hextends (.refl path t₁)
  · intro t₁ hextends
    exact hfailed t₁ t₁ hextends (.refl path t₁)

end Steps

theorem sameFile_of_same (h : t.Extends t₁) (h' : Same path t₁ t') : FileTree.SameFile path t t' := by
  constructor
  · intro found hfind place id
    rw [h'.file_iff]
    constructor
    · exact h.eq_of_find hfind
    · rintro rfl
      exact h.find_file hfind
  · intro place id hfind
    have hfind' := (h'.file_iff place id).mp hfind
    exact ⟨h.file_iff.mp (FileTree.shows_find hfind'),
      (h'.content place id hfind').trans (h.content_eq id)⟩

theorem Replaced.stands [Sqlite] {backup : Option Path} (h : t.Extends t₁)
    (hmade : (t.makeDirectories path.directory).2 = t₁) (hfits : Sqlite.Fits (Store.ofCatalog c))
    (h' : Replaced path (Sqlite.image (Store.ofCatalog c)) t₁ backup t') :
    Published.Stands path c t ⟨path, backup⟩ t' := by
  obtain ⟨place, id, hentry, hfind, hcontent⟩ := h'.new
  have hkind : t'.kind path = .ok .file := by rw [FileTree.kind, hfind]
  have hread : Sqlite.Opens path → t'.IsAlone path →
      (read path : ExceptT StoreError (StateM FileTree) Catalog).run t' =
        ((Store.ofCatalog c).read, t') := fun hopens halone =>
    run_read_of_load hkind (Sqlite.load_image hfits hopens hentry hfind hcontent halone)
  constructor
  · rfl
  · intro hopens halone hschema htrimmed hsize
    rw [hread hopens halone, Store.read_ofCatalog_of_trimmed hschema htrimmed hsize]
  · intro hopens halone d hsha hok
    rw [hread hopens halone] at hok
    exact (Store.eq_of_read_ofCatalog hsha (Prod.mk.inj hok).1).2
  · intro kept hkept
    rcases h'.keeps with hnone | ⟨hsome, place', previous, hprevious, hold⟩
    · rw [hnone] at hkept
      cases hkept
    · obtain rfl : kept = path.backup := Option.some.inj (hkept.symm.trans hsome)
      refine ⟨rfl, place', previous, h.file_iff.mp (FileTree.shows_find hprevious), ?_, ?_, ?_⟩
      · rw [hold, h.content_eq]
      · rw [hmade, hprevious]
      · exact fun found hbefore => h.eq_of_find hbefore hprevious

/-- Publishing is all or nothing, whichever steps fail. Where it ends well, the catalog reads back and
the backup holds what the target held before. Where it fails, the target is as before, unless it was
its directory that could not be synchronized. -/
theorem publish_all_or_nothing [Sqlite] (mishaps : DiskCall → Option Mishap) (t : FileTree)
    (path : Path) (c : Catalog) (keep : Bool) (hsync : mishaps (.sync path.directory) = none)
    (htarget : ∀ t₁, t.makeDirectories path.directory = (.ok (), t₁) → IsTarget t₁ path keep) :
    Ends mishaps t (publish path c keep)
      (fun published t' => published.Stands path c t t') (fun t' => t.SameFile path t') := by
  apply ends_publish htarget
  · intro backup t₁ t' hmade hfits h'
    exact h'.stands (FileTree.extends_makeDirectories hmade) (congrArg Prod.snd hmade) hfits
  · exact fun t₁ t' h h' => sameFile_of_same h h'
  · exact fun t' hfault => absurd hsync hfault

open Text.Utf8 (encode)

theorem isAlone_iff {p : Path} :
    t.IsAlone p ↔
      t.kind (p.beside "-journal") = .error .notFound ∧ t.kind (p.beside "-wal") = .error .notFound := by
  simp [FileTree.IsAlone]

theorem isTarget_of_makeDirectories {t₂ : FileTree}
    (hmade : t.makeDirectories path.directory = (.ok (), t₁))
    (hdirectory : ∀ there, t₁.find path ≠ .ok (.directory there))
    (hbackup : keep = true → ∀ place other id, t₁.find path = .ok (.file place id) →
      t₁.find path.backup ≠ .ok (.file other id))
    (hcreate : t₁.createTemporary path = .ok (temporary, t₂))
    (hopens : TextEngine.fileOf? temporary = some temporary) (halone : t₂.IsAlone temporary) :
    ∀ t₁, t.makeDirectories path.directory = (.ok (), t₁) → IsTarget t₁ path keep := by
  intro t₁' h
  obtain ⟨-, rfl⟩ := Prod.mk.inj (hmade.symm.trans h)
  refine ⟨fun _ _ there _ _ => hdirectory there, hbackup, ?_⟩
  intro other t₃ hother
  obtain ⟨rfl, rfl⟩ := Prod.mk.inj (Except.ok.inj (hcreate.symm.trans hother))
  exact ⟨hopens, halone⟩

def storedPath : Path := .ofText "data/mesa.db"

/-- A tree with some file at that path. -/
def storedTree : FileTree where
  nodes := [([encode "data"], .directory), ([encode "data", encode "mesa.db"], .file 0)]
  contents := [(0, [1, 2, 3])]

theorem find_storedTree :
    storedTree.find storedPath = .ok (.file [encode "data", encode "mesa.db"] 0) := by
  decide +kernel

/-- No file can be moved. -/
def failedMove : DiskCall → Option Mishap
  | .rename _ _ => some { fault := .busy }
  | _ => none

def catalogOf (schema : UInt32) : Catalog :=
  { info := { schemaVersion := schema, sourceVersion := ⟨"1"⟩, generatedAt := "now" }
    entries := #[{ name := "a", version := ⟨"1"⟩ }]
    listed := by
      refine ⟨?_, List.pairwise_singleton _ _⟩
      decide +kernel }

theorem publish_all_or_nothing_storedTree :
    failedMove (.sync storedPath.directory) = none ∧
      (∀ t₁, storedTree.makeDirectories storedPath.directory = (.ok (), t₁) →
        IsTarget t₁ storedPath true) ∧
      ((outcome failedMove storedTree (publish storedPath (catalogOf 1) true)).1.toOption = none ∧
        (outcome failedMove storedTree (publish storedPath (catalogOf 1) true)).2.read storedPath =
          .ok [1, 2, 3]) ∧
      ∃ t', outcome (fun _ => none) storedTree (publish storedPath (catalogOf 1) true) =
          (.ok { path := storedPath, backup := some (.ofText "data/mesa_old.db") }, t') ∧
        (read storedPath : ExceptT StoreError (StateM FileTree) Catalog).run t' =
          (.ok (catalogOf 1), t') ∧
        t'.read (.ofText "data/mesa_old.db") = .ok [1, 2, 3] := by
  have htarget : ∀ t₁, storedTree.makeDirectories storedPath.directory = (.ok (), t₁) →
      IsTarget t₁ storedPath true := by
    have hcreate : storedTree.createTemporary storedPath =
        .ok (.ofText "data/.catalog-0.tmp", { storedTree with
          nodes := ([encode "data", encode ".catalog-0.tmp"], .file 1) :: storedTree.nodes
          contents := (1, []) :: storedTree.contents }) := by decide +kernel
    have hmade : storedTree.makeDirectories storedPath.directory = (.ok (), storedTree) := by
      decide +kernel
    apply isTarget_of_makeDirectories hmade ?_ ?_ hcreate (by decide +kernel)
      (isAlone_iff.mpr (by decide +kernel))
    · rw [find_storedTree]
      nofun
    · intro _ place other id _
      have hfree : storedTree.find storedPath.backup =
          .ok (.vacant [encode "data", encode "mesa_old.db"] false) := by decide +kernel
      rw [hfree]
      nofun
  refine ⟨rfl, htarget, ?_, ?_⟩
  · have hends := publish_all_or_nothing failedMove storedTree storedPath (catalogOf 1) true rfl htarget
    have hfails : (outcome failedMove storedTree
        (publish storedPath (catalogOf 1) true)).1.toOption = none := by decide +kernel
    have hsame := hends.failed_of_outcome hfails
    have hfind := (hsame.leads _ find_storedTree _ _).mpr rfl
    refine ⟨hfails, ?_⟩
    rw [FileTree.read, FileTree.fileId, hfind]
    exact congrArg Except.ok (hsame.unchanged _ _ hfind).2
  · have hends := publish_all_or_nothing (fun _ => none) storedTree storedPath (catalogOf 1) true rfl
      htarget
    have hrun : (outcome (fun _ => none) storedTree
        (publish storedPath (catalogOf 1) true)).1.toOption =
          some { path := storedPath, backup := some (.ofText "data/mesa_old.db") } := by decide +kernel
    have halone : (outcome (fun _ => none) storedTree
        (publish storedPath (catalogOf 1) true)).2.IsAlone storedPath :=
      isAlone_iff.mpr (by decide +kernel)
    have hstands := hends.ok_of_outcome hrun
    obtain ⟨-, place, id, -, hkept, -, hprevious⟩ := hstands.backup _ rfl
    obtain ⟨rfl, rfl⟩ := Found.file.inj (hprevious _ find_storedTree)
    rcases hresult : outcome (fun _ => none) storedTree (publish storedPath (catalogOf 1) true) with
      ⟨result, t'⟩
    rw [hresult] at hrun halone hstands hkept
    cases result with
    | error e => cases hrun
    | ok published =>
        obtain rfl := Option.some.inj hrun
        have hopens : Sqlite.Opens storedPath := by
          change TextEngine.fileOf? storedPath = some storedPath
          decide +kernel
        exact ⟨t', rfl, hstands.reads hopens halone rfl (by decide +kernel) (by decide), hkept⟩

/-- What publishing would do without any condition. -/
def AllOrNothing [Sqlite] (mishaps : DiskCall → Option Mishap) (t : FileTree) (path : Path) (c : Catalog)
    (keep : Bool) : Prop :=
  Ends mishaps t (publish path c keep)
    (fun published t' =>
      (read path : ExceptT StoreError (StateM FileTree) Catalog).run t' = (.ok c, t') ∧
        ∀ kept place id, published.backup = some kept → t.find path = .ok (.file place id) →
          t'.read kept = .ok (t.content id))
    (fun t' => t.SameFile path t')

def freshPath : Path := .ofText "mesa.db"

/-- No directory can be synchronized. -/
def failedSync : DiskCall → Option Mishap
  | .sync p => if p = .ofText "." then some { fault := .busy } else none
  | _ => none

/-- The backup path leads to the target. -/
def linkedTree : FileTree where
  nodes := [([encode "mesa.db"], .file 0), ([encode "mesa_old.db"], .link freshPath)]
  contents := [(0, [1, 2, 3])]

/-- A write-ahead log lies where there is no artifact any more. -/
def staleTree : FileTree where
  nodes := [([encode "mesa.db-wal"], .file 0)]
  contents := [(0, ({ userVersion := 2 } : Store).image)]

theorem not_allOrNothing_of_isNone
    (hok : (outcome mishaps t (publish path c keep)).1.toOption.isSome = true)
    (hread : ((read path : ExceptT StoreError (StateM FileTree) Catalog).run
      (outcome mishaps t (publish path c keep)).2).1.toOption.isNone = true) :
    ¬AllOrNothing mishaps t path c keep := by
  intro h
  obtain ⟨published, hpublished⟩ := Option.isSome_iff_exists.mp hok
  have hback := (h.ok_of_outcome hpublished).1
  rw [hback] at hread
  cases hread

theorem not_allOrNothing_of_read (hlost : (Store.ofCatalog c).read ≠ .ok c)
    (hok : (outcome (fun _ => none) {} (publish freshPath c false)).1.toOption.isSome = true)
    (halone : (outcome (fun _ => none) {} (publish freshPath c false)).2.IsAlone freshPath) :
    ¬AllOrNothing (fun _ => none) {} freshPath c false := by
  have hfree : ({} : FileTree).find freshPath = .ok (.vacant [encode "mesa.db"] false) := by
    decide +kernel
  have hcreate : ({} : FileTree).createTemporary freshPath =
      .ok (.ofText "./.catalog-0.tmp",
        { nodes := [([encode ".catalog-0.tmp"], .file 0)], contents := [(0, [])] }) := by
    decide +kernel
  have hmade : ({} : FileTree).makeDirectories freshPath.directory = (.ok (), {}) := by
    decide +kernel
  have htarget : ∀ t₁, ({} : FileTree).makeDirectories freshPath.directory = (.ok (), t₁) →
      IsTarget t₁ freshPath false :=
    isTarget_of_makeDirectories hmade (by rw [hfree]; nofun) nofun hcreate (by decide +kernel)
      (isAlone_iff.mpr (by decide +kernel))
  have hends : Ends (fun _ => none) {} (publish freshPath c false)
      (fun _ t' => ∃ place id, t'.entry freshPath = .ok place ∧
        t'.find freshPath = .ok (.file place id) ∧
        t'.content id = Sqlite.image (Store.ofCatalog c))
      (fun _ => True) := by
    apply ends_publish htarget
    · exact fun _ _ _ _ _ hreplaced => hreplaced.new
    · exact fun _ _ _ _ => trivial
    · exact fun _ _ => trivial
  intro h
  obtain ⟨published, hpublished⟩ := Option.isSome_iff_exists.mp hok
  obtain ⟨place, id, hentry, hfind, hcontent⟩ := hends.ok_of_outcome hpublished
  have hopens : Sqlite.Opens freshPath := by
    change TextEngine.fileOf? freshPath = some freshPath
    decide +kernel
  have hback := (h.ok_of_outcome hpublished).1
  rw [run_read_of_load (by rw [FileTree.kind, hfind])
    (Sqlite.load_image trivial hopens hentry hfind hcontent halone)] at hback
  exact hlost (Prod.mk.inj hback).1

theorem not_allOrNothing_of_lost {found : Found} (hfind : t.find path = .ok found)
    (hfails : (outcome mishaps t (publish path c keep)).1.toOption.isNone = true)
    (hkind : (outcome mishaps t (publish path c keep)).2.kind path = .ok .file)
    (hlost : ∀ place id, found = .file place id →
      (outcome mishaps t (publish path c keep)).2.read path ≠ .ok (t.content id)) :
    ¬AllOrNothing mishaps t path c keep := by
  intro h
  have hsame := h.failed_of_outcome (Option.isNone_iff_eq_none.mp hfails)
  rw [FileTree.kind] at hkind
  split at hkind
  · cases hkind
  · rename_i place id hfile
    apply hlost place id ((hsame.leads _ hfind place id).mp hfile)
    rw [FileTree.read, FileTree.fileId, hfile]
    exact congrArg Except.ok (hsame.unchanged place id hfile).2
  · cases hkind
  · cases hkind

/-- A catalog of another layout version is published, but not read back, and so is one with blanks
around a version. Nor is a catalog read back beside the write-ahead log of an earlier artifact, or at a
path that the engine does not take for that of a file. A backup path that leads to the target spoils it
when the move fails, and a new file stays when its directory cannot be synchronized after the move. -/
theorem not_allOrNothing :
    ¬AllOrNothing (fun _ => none) {} freshPath (catalogOf 2) false ∧
      ¬AllOrNothing (fun _ => none) {} freshPath Store.paddedCatalog false ∧
      ¬AllOrNothing (fun _ => none) staleTree freshPath (catalogOf 1) false ∧
      ¬AllOrNothing (fun _ => none) {} (.ofText ":memory:") (catalogOf 1) false ∧
      ¬AllOrNothing failedMove linkedTree freshPath (catalogOf 1) true ∧
      ¬AllOrNothing failedSync {} freshPath (catalogOf 1) false := by
  refine ⟨?_, ?_, ?_, ?_, ?_, ?_⟩
  · apply not_allOrNothing_of_read ?_ (by decide +kernel) (isAlone_iff.mpr (by decide +kernel))
    have hread : (Store.ofCatalog (catalogOf 2)).read = .error (.incompatible 2) :=
      Store.read_eq_incompatible_iff.mpr (by decide +kernel)
    rw [hread]
    nofun
  · apply not_allOrNothing_of_read ?_ (by decide +kernel) (isAlone_iff.mpr (by decide +kernel))
    intro hread
    have htrimmed := (Store.eq_of_read_ofCatalog Store.not_collide_paddedCatalog hread).1
    revert htrimmed
    decide +kernel
  · exact not_allOrNothing_of_isNone (by decide +kernel) (by decide +kernel)
  · exact not_allOrNothing_of_isNone (by decide +kernel) (by decide +kernel)
  · have hfind : linkedTree.find freshPath = .ok (.file [encode "mesa.db"] 0) := by decide +kernel
    apply not_allOrNothing_of_lost hfind (by decide +kernel) (by decide +kernel)
    rintro place id ⟨⟩
    decide +kernel
  · have hfind : ({} : FileTree).find freshPath = .ok (.vacant [encode "mesa.db"] false) := by
      decide +kernel
    apply not_allOrNothing_of_lost hfind (by decide +kernel) (by decide +kernel)
    rintro place id ⟨⟩

end Artifact

end NamelistCatalog
