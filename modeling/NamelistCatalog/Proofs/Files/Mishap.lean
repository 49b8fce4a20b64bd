import NamelistCatalog.Artifact
import NamelistCatalog.Proofs.Files.Change
import NamelistCatalog.Store.Sqlite

namespace NamelistCatalog

/-- A step on files, by what it does and where. -/
inductive DiskCall where
  | kind (p : Path)
  | read (p : Path)
  | write (p : Path)
  | makeDirectories (p : Path)
  | createTemporary (p : Path)
  | sync (p : Path)
  | copy (source target : Path)
  | rename (source target : Path)
  | remove (p : Path)
  | save (p : Path)
deriving DecidableEq, Repr

/-- How a step fails. A file that was being written is left with any bytes, and of the directories of a
path only some are made; a move is made or it is not. -/
structure Mishap where
  fault : IoFault
  /-- What the file is left with that was being written, if it was touched at all. -/
  leftover : Option (List UInt8) := none
  /-- How many segments of a path have got their directories. -/
  made : Nat := 0

/-- Steps on a tree of files, any of which may fail. -/
abbrev FaultyDisk := ReaderT (DiskCall → Option Mishap) (StateM FileTree)

namespace FaultyDisk

/-- A step that is made unless a mishap befalls it. -/
def perhaps {ε α : Type} (call : DiskCall) (error : Mishap → ε) (spoil : Mishap → FileTree → FileTree)
    (step : StateM FileTree (Except ε α)) : FaultyDisk (Except ε α) :=
  fun mishaps t =>
    match mishaps call with
    | some mishap => (.error (error mishap), spoil mishap t)
    | none => step t

/-- The tree with a file that was not written to its end. -/
def spoilFile (p : Path) (mishap : Mishap) (t : FileTree) : FileTree :=
  (mishap.leftover.bind fun bytes => (t.write p bytes).toOption).getD t

/-- The tree with some of the directories of a path. -/
def spoilDirectories (p : Path) (mishap : Mishap) (t : FileTree) : FileTree :=
  (t.makeAlong (FileTree.startOf [] p).1 ((FileTree.startOf [] p).2.take mishap.made)).2

instance : Disk FaultyDisk where
  kind p := perhaps (.kind p) Mishap.fault (fun _ t => t) (Disk.kind p)
  read p := perhaps (.read p) Mishap.fault (fun _ t => t) (Disk.read p)
  write p bytes := perhaps (.write p) Mishap.fault (spoilFile p) (Disk.write p bytes)
  makeDirectories p :=
    perhaps (.makeDirectories p) Mishap.fault (spoilDirectories p) (Disk.makeDirectories p)
  createTemporary p :=
    perhaps (.createTemporary p) Mishap.fault (fun _ t => t) (Disk.createTemporary p)
  sync p := perhaps (.sync p) Mishap.fault (fun _ t => t) (Disk.sync p)
  copy source target :=
    perhaps (.copy source target) Mishap.fault (spoilFile target) (Disk.copy source target)
  rename source target :=
    perhaps (.rename source target) Mishap.fault (fun _ t => t) (Disk.rename source target)
  remove p := fun mishaps t => ((), if (mishaps (.remove p)).isSome then t else t.remove p)

instance [Sqlite] : Storage FaultyDisk where
  save p s := perhaps (.save p) (fun _ => "disk I/O error") (spoilFile p) (Storage.save p s)
  load p := fun _ => Storage.load (m := StateM FileTree) p

/-- How a run on a tree with these mishaps ends, and the tree that it leaves. -/
def outcome {α : Type} (mishaps : DiskCall → Option Mishap) (t : FileTree)
    (x : ExceptT StoreError FaultyDisk α) : Except StoreError α × FileTree :=
  x.run mishaps t

/-- Run on a tree with these mishaps, `x` ends well as `ok` says or fails as `failed` says. -/
def Ends {α : Type} (mishaps : DiskCall → Option Mishap) (t : FileTree)
    (x : ExceptT StoreError FaultyDisk α) (ok : α → FileTree → Prop) (failed : FileTree → Prop) :
    Prop :=
  match outcome mishaps t x with
  | (.ok a, t') => ok a t'
  | (.error _, t') => failed t'

variable {α β : Type} {mishaps : DiskCall → Option Mishap} {t : FileTree} {p source target : Path}
  {x : ExceptT StoreError FaultyDisk α} {ok : α → FileTree → Prop} {failed : FileTree → Prop}

theorem Ends.ok_of_outcome {a : α} (h : Ends mishaps t x ok failed)
    (hrun : (outcome mishaps t x).1.toOption = some a) : ok a (outcome mishaps t x).2 := by
  unfold Ends at h
  split at h
  · rename_i result t' heq
    rw [heq] at hrun ⊢
    obtain rfl := Option.some.inj hrun
    exact h
  · rename_i e t' heq
    rw [heq] at hrun
    cases hrun

theorem Ends.failed_of_outcome (h : Ends mishaps t x ok failed)
    (hrun : (outcome mishaps t x).1.toOption = none) : failed (outcome mishaps t x).2 := by
  unfold Ends at h
  split at h
  · rename_i result t' heq
    rw [heq] at hrun
    cases hrun
  · rename_i e t' heq
    rw [heq]
    exact h

theorem ends_pure {a : α} (h : ok a t) : Ends mishaps t (pure a) ok failed := h

theorem bind_apply (mishaps : DiskCall → Option Mishap) (t : FileTree) (x : FaultyDisk α)
    (f : α → FaultyDisk β) :
    (x >>= f) mishaps t = f (x mishaps t).1 mishaps (x mishaps t).2 := rfl

theorem outcome_bind (mishaps : DiskCall → Option Mishap) (t : FileTree)
    (x : ExceptT StoreError FaultyDisk α) (f : α → ExceptT StoreError FaultyDisk β) :
    outcome mishaps t (x >>= f) =
      match outcome mishaps t x with
      | (.ok a, t') => outcome mishaps t' (f a)
      | (.error e, t') => (.error e, t') := by
  change ExceptT.bindCont f (outcome mishaps t x).1 mishaps (outcome mishaps t x).2 = _
  rcases outcome mishaps t x with ⟨result, t'⟩
  cases result <;> rfl

theorem Ends.bind {f : α → ExceptT StoreError FaultyDisk β} {ok : β → FileTree → Prop}
    (h : Ends mishaps t x (fun a t' => Ends mishaps t' (f a) ok failed) failed) :
    Ends mishaps t (x >>= f) ok failed := by
  unfold Ends at h
  rw [Ends, outcome_bind]
  rcases hx : outcome mishaps t x with ⟨result, t'⟩
  rw [hx] at h
  cases result with
  | ok a => exact h
  | error e => exact h

theorem outcome_step (mishaps : DiskCall → Option Mishap) (t : FileTree)
    (step : FaultyDisk (Except IoFault α)) :
    outcome mishaps t (Artifact.step step) =
      match step mishaps t with
      | (.ok a, t') => (.ok a, t')
      | (.error fault, t') => (.error (.io fault), t') := by
  rw [outcome, Artifact.step, ExceptT.run_mk, bind_apply]
  rcases step mishaps t with ⟨result, t'⟩
  cases result <;> rfl

theorem ends_step {step : FaultyDisk (Except IoFault α)}
    (hok : ∀ a t', step mishaps t = (.ok a, t') → ok a t')
    (hfailed : ∀ fault t', step mishaps t = (.error fault, t') → failed t') :
    Ends mishaps t (Artifact.step step) ok failed := by
  rw [Ends, outcome_step]
  rcases hstep : step mishaps t with ⟨result, t'⟩
  cases result with
  | ok a => exact hok a t' hstep
  | error fault => exact hfailed fault t' hstep

theorem ends_ofExcept {result : Except StoreError α} (hok : ∀ a, result = .ok a → ok a t)
    (hfailed : failed t) : Ends mishaps t (ExceptT.mk (pure result)) ok failed := by
  cases result with
  | ok a => exact hok a rfl
  | error e => exact hfailed

theorem ends_perhaps {call : DiskCall} {spoil : Mishap → FileTree → FileTree}
    {step : StateM FileTree (Except IoFault α)}
    (hok : ∀ a t', step t = (.ok a, t') → ok a t')
    (hfault : ∀ fault t', mishaps call = none → step t = (.error fault, t') → failed t')
    (hspoil : ∀ mishap, mishaps call = some mishap → failed (spoil mishap t)) :
    Ends mishaps t (Artifact.step (perhaps call Mishap.fault spoil step)) ok failed := by
  apply ends_step
  · intro a t' h
    rw [perhaps] at h
    split at h
    · cases h
    · exact hok a t' h
  · intro fault t' h
    rw [perhaps] at h
    split at h
    · rename_i mishap hmishap
      rw [← (Prod.mk.inj h).2]
      exact hspoil mishap hmishap
    · rename_i hnone
      exact hfault fault t' hnone h

theorem ends_attempt {call : DiskCall} {spoil : Mishap → FileTree → FileTree}
    {change : FileTree → Except IoFault FileTree} {ok : Unit → FileTree → Prop}
    (hok : ∀ t', change t = .ok t' → ok () t') (hfault : failed t)
    (hspoil : ∀ mishap, failed (spoil mishap t)) :
    Ends mishaps t (Artifact.step (perhaps call Mishap.fault spoil (FileTree.attempt change))) ok
      failed := by
  apply ends_perhaps
  · intro _ t' h
    rw [FileTree.attempt] at h
    split at h
    · rename_i changed hchange
      obtain rfl := (Prod.mk.inj h).2
      exact hok _ hchange
    · cases h
  · intro fault t' _ h
    rw [FileTree.attempt] at h
    split at h
    · cases h
    · obtain rfl := (Prod.mk.inj h).2
      exact hfault
  · exact fun mishap _ => hspoil mishap

theorem spoilFile_eq (p : Path) (mishap : Mishap) (t : FileTree) :
    spoilFile p mishap t = t ∨ ∃ bytes, t.write p bytes = .ok (spoilFile p mishap t) := by
  rw [spoilFile]
  cases mishap.leftover with
  | none => exact .inl rfl
  | some bytes =>
      rw [Option.bind_some]
      cases hwrite : t.write p bytes with
      | error fault => exact .inl rfl
      | ok t' => exact .inr ⟨bytes, hwrite⟩

section Steps

variable {ok : Unit → FileTree → Prop}

theorem ends_makeDirectories (hok : ∀ t', t.makeDirectories p = (.ok (), t') → ok () t')
    (hfailed : ∀ t', t.Extends t' → failed t') :
    Ends mishaps t (Artifact.step (Disk.makeDirectories p)) ok failed := by
  apply ends_perhaps
  · exact fun _ => hok
  · intro fault t' _ h
    exact hfailed t' (FileTree.extends_makeDirectories h)
  · exact fun mishap _ => hfailed _ (FileTree.extends_makeAlong t _ _)

theorem ends_copy (hok : ∀ t', t.copy source target = .ok t' → ok () t')
    (hfailed : ∀ t', FileTree.Rewrites target t t' → failed t') :
    Ends mishaps t (Artifact.step (Disk.copy source target)) ok failed := by
  apply ends_attempt hok (hfailed t (.refl target t))
  intro mishap
  rcases spoilFile_eq target mishap t with hsame | ⟨bytes, hwrite⟩
  · rw [hsame]
    exact hfailed t (.refl target t)
  · exact hfailed _ (FileTree.rewrites_write hwrite)

theorem ends_rename (hok : ∀ t', t.rename source target = .ok t' → ok () t') (hfailed : failed t) :
    Ends mishaps t (Artifact.step (Disk.rename source target)) ok failed :=
  ends_attempt hok hfailed fun _ => hfailed

theorem ends_sync (hok : ok () t)
    (hfailed : (mishaps (.sync p) = none → ∃ fault, t.kind p = .error fault) → failed t) :
    Ends mishaps t (Artifact.step (Disk.sync p)) ok failed := by
  apply ends_perhaps
  · intro _ t' h
    obtain rfl := (Prod.mk.inj h).2
    exact hok
  · intro fault t' hnone h
    obtain ⟨hkind, rfl⟩ := Prod.mk.inj h
    apply hfailed
    intro _
    cases hp : t.kind p with
    | ok kind =>
        rw [hp] at hkind
        cases hkind
    | error fault => exact ⟨fault, rfl⟩
  · intro mishap hmishap
    apply hfailed
    intro hnone
    rw [hmishap] at hnone
    cases hnone

end Steps

theorem ends_createTemporary {ok : Path → FileTree → Prop}
    (hok : ∀ temporary t', t.createTemporary p = .ok (temporary, t') → ok temporary t')
    (hfailed : failed t) :
    Ends mishaps t (Artifact.step (Disk.createTemporary p)) ok failed := by
  apply ends_perhaps
  · intro temporary t' h
    cases hcreate : t.createTemporary p with
    | error fault =>
        simp only [Disk.createTemporary, hcreate] at h
        cases h
    | ok created =>
        simp only [Disk.createTemporary, hcreate] at h
        obtain ⟨hsame, rfl⟩ := Prod.mk.inj h
        obtain rfl := Except.ok.inj hsame
        exact hok _ _ hcreate
  · intro fault t' _ h
    cases hcreate : t.createTemporary p with
    | error fault =>
        simp only [Disk.createTemporary, hcreate] at h
        obtain rfl := (Prod.mk.inj h).2
        exact hfailed
    | ok created =>
        simp only [Disk.createTemporary, hcreate] at h
        cases h
  · exact fun _ _ => hfailed

theorem ends_save [Sqlite] {ok : Unit → FileTree → Prop} {place : Location} {id : Nat} {s : Store}
    (hopens : Sqlite.Opens p) (hfind : t.find p = .ok (.file place id)) (hempty : t.content id = [])
    (halone : t.IsAlone p) (hok : Sqlite.Fits s → ok () (t.setContent id (Sqlite.image s)))
    (hsame : failed t) (hfailed : ∀ bytes, failed (t.setContent id bytes)) :
    Ends mishaps t (Artifact.save p s) ok failed := by
  have hrun : outcome mishaps t (Artifact.save p s) =
      (((Storage.save p s : FaultyDisk _) mishaps t).1.mapError .engine,
        ((Storage.save p s : FaultyDisk _) mishaps t).2) := rfl
  have hsave : (Storage.save p s : FaultyDisk _) mishaps t =
      match mishaps (.save p) with
      | some mishap => (.error "disk I/O error", spoilFile p mishap t)
      | none => Sqlite.save t p s := rfl
  rw [Ends, hrun, hsave]
  cases mishaps (.save p) with
  | some mishap =>
      change failed (spoilFile p mishap t)
      rcases spoilFile_eq p mishap t with hspoilt | ⟨bytes, hwrite⟩
      · rwa [hspoilt]
      · rw [FileTree.write, hfind] at hwrite
        rw [← Except.ok.inj hwrite]
        exact hfailed bytes
  | none =>
      dsimp only
      rcases Sqlite.save_empty s hopens hfind hempty halone with
        ⟨hfits, hsaved⟩ | ⟨reason, bytes, hsaved⟩
      · rw [hsaved]
        exact hok hfits
      · rw [hsaved]
        exact hfailed bytes

theorem exists_isFile (mishaps : DiskCall → Option Mishap) (t : FileTree) (p : Path) :
    ∃ answer, (Disk.isFile p : FaultyDisk Bool) mishaps t = (answer, t) ∧
      (answer = true → ∃ place id, t.find p = .ok (.file place id)) := by
  have hkind : (Disk.kind p : FaultyDisk _) mishaps t =
      match mishaps (.kind p) with
      | some mishap => (.error mishap.fault, t)
      | none => (t.kind p, t) := rfl
  rw [Disk.isFile, bind_apply, hkind]
  cases mishaps (.kind p) with
  | some mishap => exact ⟨false, rfl, nofun⟩
  | none =>
      dsimp only
      rw [FileTree.kind]
      cases t.find p with
      | error fault => exact ⟨false, rfl, nofun⟩
      | ok found =>
          cases found with
          | directory there => exact ⟨false, rfl, nofun⟩
          | file place id => exact ⟨true, rfl, fun _ => ⟨place, id, rfl⟩⟩
          | vacant place closed => exact ⟨false, rfl, nofun⟩

theorem ends_isFile {ok : Bool → FileTree → Prop}
    (h : ∀ answer, (answer = true → ∃ place id, t.find p = .ok (.file place id)) → ok answer t) :
    Ends mishaps t (Disk.isFile p : FaultyDisk Bool) ok failed := by
  obtain ⟨answer, hrun, hfile⟩ := exists_isFile mishaps t p
  change ok ((Disk.isFile p : FaultyDisk Bool) mishaps t).1
    ((Disk.isFile p : FaultyDisk Bool) mishaps t).2
  rw [hrun]
  exact h answer hfile

theorem outcome_orDiscard (mishaps : DiskCall → Option Mishap) (t : FileTree) (temporary : Path)
    (x : ExceptT StoreError FaultyDisk α) :
    outcome mishaps t (Artifact.orDiscard temporary x) =
      match outcome mishaps t x with
      | (.ok a, t') => (.ok a, t')
      | (.error e, t') =>
          (.error e, if (mishaps (.remove temporary)).isSome then t' else t'.remove temporary) := by
  rw [outcome, outcome, Artifact.orDiscard, ExceptT.run_mk, bind_apply]
  rcases x.run mishaps t with ⟨result, t'⟩
  cases result <;> rfl

theorem Ends.orDiscard {temporary : Path}
    (h : Ends mishaps t x ok fun t' => failed t' ∧ failed (t'.remove temporary)) :
    Ends mishaps t (Artifact.orDiscard temporary x) ok failed := by
  unfold Ends at h
  rw [Ends, outcome_orDiscard]
  rcases hx : outcome mishaps t x with ⟨result, t'⟩
  rw [hx] at h
  cases result with
  | ok a => exact h
  | error e =>
      dsimp only
      split
      · exact h.1
      · exact h.2

end FaultyDisk

end NamelistCatalog
