import NamelistCatalog.Proofs.Artifact
import NamelistCatalog.Proofs.Text.Join

namespace NamelistCatalog

namespace Path

section Stem

variable {α : Type} [BEq α] [LawfulBEq α] {point : α} {stem extension name : List α}

theorem takeWhile_not_point {s t : List α} (h : point ∉ s) :
    (s.reverse ++ t).takeWhile (· != point) = s.reverse ++ t.takeWhile (· != point) := by
  apply List.takeWhile_append_of_pos
  intro c hc
  rw [bne_iff_ne]
  rintro rfl
  exact h (List.mem_reverse.mp hc)

theorem stemAndExtension_append (hstem : stem ≠ []) (hextension : point ∉ extension) :
    stemAndExtension point (stem ++ point :: extension) = (stem, some extension) := by
  have hlast : (stem ++ point :: extension).reverse.takeWhile (· != point) = extension.reverse := by
    rw [List.reverse_append, List.reverse_cons, List.append_assoc, List.singleton_append,
      takeWhile_not_point hextension]
    simp
  have hlength : (stem ++ point :: extension).length - extension.length - 1 = stem.length := by
    rw [List.length_append, List.length_cons]
    omega
  rw [stemAndExtension, hlast, List.reverse_reverse, hlength, List.take_left]
  exact if_neg (mt List.isEmpty_iff.mp hstem)

omit [BEq α] [LawfulBEq α] in
theorem exists_last_point (h : point ∈ name.tail) :
    ∃ stem extension, name = stem ++ point :: extension ∧ stem ≠ [] ∧ point ∉ extension := by
  obtain ⟨extension, before, hname, hextension⟩ :=
    List.eq_append_cons_of_mem (List.mem_reverse.mpr h)
  cases name with
  | nil => cases h
  | cons c rest =>
      rw [List.tail_cons, List.reverse_eq_iff] at hname
      refine ⟨c :: before.reverse, extension.reverse, ?_, List.cons_ne_nil _ _, ?_⟩
      · rw [hname]
        simp
      · rwa [List.mem_reverse]

theorem stemAndExtension_of_not_mem (h : point ∉ name.tail) :
    stemAndExtension point name = (name, none) := by
  have hlong : name.length ≤ (name.reverse.takeWhile (· != point)).length + 1 := by
    cases name with
    | nil => exact Nat.zero_le _
    | cons c rest =>
        rw [List.tail_cons] at h
        rw [List.reverse_cons, takeWhile_not_point h, List.length_append, List.length_reverse,
          List.length_cons]
        omega
  rw [stemAndExtension, List.length_reverse, Nat.sub_sub, Nat.sub_eq_zero_of_le hlong]
  rfl

end Stem

/-- The text of a backup name for a name that is shown as this text. -/
def backupText (name : List Char) : List Char :=
  match stemAndExtension '.' name with
  | (stem, some extension) => (stem ++ "_old".toList) ++ '.' :: extension
  | (stem, none) => stem ++ "_old".toList

section BackupText

variable {stem extension name : List Char}

theorem backupText_append (hstem : stem ≠ []) (hextension : '.' ∉ extension) :
    backupText (stem ++ '.' :: extension) = (stem ++ "_old".toList) ++ '.' :: extension := by
  rw [backupText, stemAndExtension_append hstem hextension]

theorem backupText_of_not_mem (h : '.' ∉ name.tail) : backupText name = name ++ "_old".toList := by
  rw [backupText, stemAndExtension_of_not_mem h]

theorem length_backupText (name : List Char) : (backupText name).length = name.length + 4 := by
  by_cases h : '.' ∈ name.tail
  · obtain ⟨stem, extension, rfl, hstem, hextension⟩ := exists_last_point h
    rw [backupText_append hstem hextension]
    simp
    omega
  · rw [backupText_of_not_mem h]
    simp

theorem not_mem_backupText {c : Char} (h : c ∉ name) (hold : c ∉ "_old".toList) :
    c ∉ backupText name := by
  by_cases hpoint : '.' ∈ name.tail
  · obtain ⟨stem, extension, rfl, hstem, hextension⟩ := exists_last_point hpoint
    rw [backupText_append hstem hextension]
    simp only [List.mem_append, not_or] at h ⊢
    exact ⟨⟨h.1, hold⟩, h.2⟩
  · rw [backupText_of_not_mem hpoint, List.mem_append, not_or]
    exact ⟨h, hold⟩

/-- The file name with this stem and this extension. -/
def ofStem : List Char × Option (List Char) → List Char
  | (stem, none) => stem
  | (stem, some extension) => stem ++ '.' :: extension

theorem ofStem_stemAndExtension (name : List Char) : ofStem (stemAndExtension '.' name) = name := by
  by_cases h : '.' ∈ name.tail
  · obtain ⟨stem, extension, rfl, hstem, hextension⟩ := exists_last_point h
    rw [stemAndExtension_append hstem hextension]
    rfl
  · rw [stemAndExtension_of_not_mem h]
    rfl

theorem stemAndExtension_backupText (name : List Char) :
    stemAndExtension '.' (backupText name) =
      ((stemAndExtension '.' name).1 ++ "_old".toList, (stemAndExtension '.' name).2) := by
  by_cases h : '.' ∈ name.tail
  · obtain ⟨stem, extension, rfl, hstem, hextension⟩ := exists_last_point h
    rw [backupText_append hstem hextension, stemAndExtension_append hstem hextension,
      stemAndExtension_append (by simp) hextension]
  · have hplain : '.' ∉ (name ++ "_old".toList).tail := by
      cases name with
      | nil => decide
      | cons c rest =>
          rw [List.cons_append, List.tail_cons, List.mem_append, not_or]
          exact ⟨h, by decide⟩
    rw [backupText_of_not_mem h, stemAndExtension_of_not_mem h, stemAndExtension_of_not_mem hplain]

theorem backupText_injective : Function.Injective backupText := by
  intro name other h
  have hparts := stemAndExtension_backupText name
  rw [h, stemAndExtension_backupText other] at hparts
  obtain ⟨hstem, hextension⟩ := Prod.mk.inj hparts
  rw [← ofStem_stemAndExtension name, ← ofStem_stemAndExtension other]
  congr 1
  exact Prod.ext (List.append_cancel_right hstem.symm) hextension.symm

end BackupText

variable {p : Path} {name : Segment} {start : Start} {front body : List Segment}

/-! The name of a backup. -/

/-- Cutting a name at its last point and showing the parts is cutting the name as it is shown. -/
theorem toList_backupName (name : Segment) :
    (backupName name).toList = backupText (Text.Utf8.decodeLossy name) := by
  have hplain : ∀ {bytes : Segment}, dot ∉ bytes → '.' ∉ Text.Utf8.decodeLossy bytes :=
    fun h hpoint => h (Text.Utf8.mem_of_mem_decodeLossy (by decide) (by decide) hpoint)
  by_cases h : dot ∈ name.tail
  · obtain ⟨stem, extension, rfl, hstem, hextension⟩ := exists_last_point h
    have hshown : Text.Utf8.decodeLossy (stem ++ dot :: extension) =
        Text.Utf8.decodeLossy stem ++ '.' :: Text.Utf8.decodeLossy extension :=
      Text.Utf8.decodeLossy_append (by decide) stem extension
    rw [hshown, backupText_append (mt Text.Utf8.decodeLossy_eq_nil_iff.mp hstem) (hplain hextension),
      backupName, stemAndExtension_append hstem hextension]
    simp [shown]
  · have htail : '.' ∉ (Text.Utf8.decodeLossy name).tail := by
      cases name with
      | nil => decide +kernel
      | cons b rest =>
          by_cases hb : b = dot
          · subst hb
            have hshown := Text.Utf8.decodeLossy_append (d := dot) (by decide) [] rest
            rw [List.nil_append, Text.Utf8.decodeLossy_eq_nil_iff.mpr rfl] at hshown
            rw [hshown]
            exact hplain h
          · refine fun hpoint => hplain ?_ (List.mem_of_mem_tail hpoint)
            rw [List.mem_cons, not_or]
            exact ⟨Ne.symm hb, h⟩
    rw [backupText_of_not_mem htail, backupName, stemAndExtension_of_not_mem h]
    simp [shown]

theorem backupName_eq_iff {other : Segment} :
    backupName other = backupName name ↔ shown other = shown name := by
  rw [← String.toList_inj, toList_backupName, toList_backupName, backupText_injective.eq_iff, shown, shown,
    String.ofList_inj]

theorem encode_backupName_ne (name : Segment) : Text.Utf8.encode (backupName name) ≠ name := by
  intro h
  -- A name that is the bytes of a text is shown as that text, and the backup of it is longer.
  have hshown := Text.Utf8.decodeLossy_encode (backupName name)
  rw [h, toList_backupName] at hshown
  have hlength := congrArg List.length hshown
  rw [length_backupText] at hlength
  omega

theorem isFileName_backupName (h : IsFileName name) :
    IsFileName (Text.Utf8.encode (backupName name)) := by
  have htext := Text.Utf8.decodeLossy_encode (backupName name)
  rw [toList_backupName] at htext
  have hlong : 4 ≤ (Text.Utf8.decodeLossy (Text.Utf8.encode (backupName name))).length := by
    rw [htext, length_backupText]
    exact Nat.le_add_left 4 _
  refine ⟨?_, ?_, ?_⟩
  · rw [isIdle, Bool.or_eq_false_iff, List.isEmpty_eq_false_iff, beq_eq_false_iff_ne]
    constructor
    · intro hempty
      rw [hempty] at hlong
      exact absurd hlong (by decide +kernel)
    · intro hdot
      rw [hdot] at hlong
      exact absurd hlong (by decide +kernel)
  · rw [isUp, beq_eq_false_iff_ne]
    intro hdots
    rw [hdots] at hlong
    exact absurd hlong (by decide +kernel)
  · intro hslash
    obtain ⟨c, hc, hcode⟩ := Text.Utf8.exists_of_mem_encode (by decide) hslash
    obtain rfl : c = '/' := Char.toNat_inj.mp hcode
    rw [toList_backupName] at hc
    refine not_mem_backupText ?_ (by decide) hc
    exact fun hshown => h.noSlash (Text.Utf8.mem_of_mem_decodeLossy (by decide) (by decide) hshown)

theorem fileName?_backup (h : p.fileName? = some name) :
    p.backup.fileName? = some (Text.Utf8.encode (backupName name)) := by
  rw [backup, h]
  exact fileName?_withFileName (isFileName_backupName (isFileName_of_fileName? h))

/-! The directory of a backup. -/

/-- Segments that a path with this start has. -/
structure IsSplit (start : Start) (body : List Segment) : Prop where
  noSlash : ∀ segment ∈ body, slash ∉ segment
  visible : start = .none → ∀ segment ∈ body.head?, isIdle segment = false

theorem isSplit_split (p : Path) : IsSplit p.split.1 p.split.2 := by
  constructor
  · intro segment hsegment hslash
    have hfalse := Text.eq_false_of_mem_fields (mem_fields_of_mem_split hsegment) hslash
    cases hfalse
  · rw [split]
    split
    · rintro - segment ⟨⟩
    · rintro - segment ⟨⟩
    · rintro ⟨⟩
    · rename_i hroot _
      split
      · rintro ⟨⟩
      · rename_i hdot
        rintro - segment hsegment
        obtain rfl := Option.some.inj hsegment
        rw [isIdle, Bool.or_eq_false_iff, List.isEmpty_eq_false_iff, beq_eq_false_iff_ne]
        exact ⟨hroot, hdot⟩

theorem IsSplit.of_isPrefix (h : IsSplit start body) (hfront : front <+: body) : IsSplit start front := by
  refine ⟨fun segment hsegment => h.noSlash segment (hfront.mem hsegment), ?_⟩
  intro hstart segment hsegment
  obtain ⟨rest, rfl⟩ := List.head?_eq_some_iff.mp hsegment
  obtain ⟨more, rfl⟩ := hfront
  exact h.visible hstart segment rfl

theorem IsSplit.concat (h : IsSplit start front) (hname : IsFileName name) :
    IsSplit start (front ++ [name]) := by
  constructor
  · intro segment hsegment
    rcases List.mem_append.mp hsegment with hsegment | hsegment
    · exact h.noSlash segment hsegment
    · rw [List.mem_singleton.mp hsegment]
      exact hname.noSlash
  · intro hstart segment hsegment
    cases front with
    | nil =>
        obtain rfl := Option.some.inj hsegment
        exact hname.visible
    | cons first rest => exact h.visible hstart segment hsegment

theorem split_ofSplit (h : IsSplit start body) (hne : body ≠ []) :
    (ofSplit start body).split = (start, body) := by
  cases start with
  | root =>
      have hfields : Text.fields (· == slash) (slash :: Text.joinWith [slash] body) = [] :: body := by
        rw [← List.nil_append (slash :: _), Text.fields_append_cons (by decide) (by simp),
          Text.fields_joinWith hne h.noSlash]
      rw [split, ofSplit, hfields]
      cases body with
      | nil => exact absurd rfl hne
      | cons first rest => rfl
  | here =>
      have hnoSlash : ∀ segment ∈ [dot] :: body, slash ∉ segment := by
        intro segment hsegment
        rcases List.mem_cons.mp hsegment with rfl | hmem
        · decide
        · exact h.noSlash segment hmem
      rw [split, ofSplit, Text.fields_joinWith (by simp) hnoSlash]
      rfl
  | none =>
      obtain ⟨first, rest, rfl⟩ := List.exists_cons_of_ne_nil hne
      have hvisible := h.visible rfl first rfl
      rw [split, ofSplit, Text.fields_joinWith hne h.noSlash]
      split
      · rename_i heq
        cases heq
      · rename_i heq
        obtain ⟨rfl, -⟩ := List.cons.inj heq
        cases hvisible
      · rename_i heq
        obtain ⟨rfl, -⟩ := List.cons.inj heq
        cases hvisible
      · rename_i heq
        obtain ⟨rfl, rfl⟩ := List.cons.inj heq
        refine if_neg ?_
        rintro rfl
        cases hvisible

theorem join_joinWith {parts : List Segment} {last : Segment} (hlast : parts.getLast? = some last)
    (hne : last ≠ []) (hslash : slash ∉ last) (hname : slash ∉ name) :
    (⟨Text.joinWith [slash] parts⟩ : Path).join ⟨name⟩ =
      ⟨Text.joinWith [slash] (parts ++ [name])⟩ := by
  obtain ⟨front, rfl⟩ := List.getLast?_eq_some_iff.mp hlast
  have hend : (Text.joinWith [slash] (front ++ [last])).getLast? = last.getLast? :=
    Text.getLast?_joinWith_concat front hne
  have hempty : Text.joinWith [slash] (front ++ [last]) ≠ [] := by
    intro h
    rw [h] at hend
    exact hne (List.getLast?_eq_none_iff.mp hend.symm)
  have hrelative : name.head? ≠ some slash := mt List.mem_of_mem_head? hname
  have hopen : (Text.joinWith [slash] (front ++ [last])).getLast? ≠ some slash := by
    rw [hend]
    exact mt List.mem_of_getLast? hslash
  have hjoined : Text.joinWith [slash] (front ++ [last] ++ [name]) =
      Text.joinWith [slash] (front ++ [last]) ++ (slash :: name) := by
    rw [List.append_assoc, Text.joinWith_append _ front (by simp), Text.joinWith_append _ front (by simp)]
    simp [Text.joinWith]
  rw [join, hjoined, beq_eq_false_iff_ne.mpr hrelative, beq_eq_false_iff_ne.mpr hopen, Bool.false_or,
    if_neg (by simpa using hempty), if_neg Bool.false_ne_true]

/-- Segments of a directory that a path lies in. -/
structure IsParent (start : Start) (front : List Segment) : Prop extends IsSplit start front where
  noIdleEnd : dropIdleEnd front = front

theorem IsParent.join_ofSplit (h : IsParent start front) (hname : IsFileName name) :
    (ofSplit start front).join ⟨name⟩ = ofSplit start (front ++ [name]) := by
  rcases List.eq_nil_or_concat' front with rfl | ⟨before, last, rfl⟩
  · cases start with
    | root =>
        -- The root ends in a slash already.
        have hrelative : name.head? ≠ some slash := mt List.mem_of_mem_head? hname.noSlash
        change (⟨[slash]⟩ : Path).join ⟨name⟩ = ⟨slash :: name⟩
        rw [join, beq_eq_false_iff_ne.mpr hrelative]
        rfl
    | here =>
        have hdot : [[dot]].getLast? = some [dot] := rfl
        exact join_joinWith hdot (by simp) (by decide) hname.noSlash
    | none => simp [ofSplit, Text.joinWith, join]
  · have hvisible : isIdle last = false := by
      have hend : (dropIdleEnd (before ++ [last])).getLast? = some last := by
        rw [h.noIdleEnd, List.getLast?_concat]
      exact Text.eq_false_of_mem_getLast?_dropEndWhile hend
    have hne : last ≠ [] := by
      rintro rfl
      cases hvisible
    have hslash : slash ∉ last := h.noSlash last (by simp)
    have hlast : ∀ lead, (lead ++ before ++ [last]).getLast? = some last := fun lead =>
      List.getLast?_concat
    cases start with
    | root =>
        have htext : ∀ body : List Segment, body ≠ [] →
            ofSplit .root body = ⟨Text.joinWith [slash] ([] :: body)⟩ := by
          intro body hbody
          rw [ofSplit, Text.joinWith_cons [] hbody]
          rfl
        rw [htext _ (by simp), htext _ (by simp)]
        exact join_joinWith (hlast [[]]) hne hslash hname.noSlash
    | here => exact join_joinWith (hlast [[dot]]) hne hslash hname.noSlash
    | none => exact join_joinWith (hlast []) hne hslash hname.noSlash

theorem IsParent.parent?_concat (h : IsParent start front) (hname : IsFileName name) :
    (ofSplit start (front ++ [name])).parent? = some (ofSplit start front) := by
  have hlast : (front ++ [name]).getLast? = some name := List.getLast?_concat
  obtain ⟨first, rest, heq⟩ : ∃ first rest, front ++ [name] = first :: rest :=
    List.exists_cons_of_ne_nil (by simp)
  rw [parent?, split_ofSplit (h.concat hname) (by simp)]
  dsimp only
  rw [dropIdleEnd_eq_self hlast hname.visible, heq]
  dsimp only
  rw [← heq, List.dropLast_concat, h.noIdleEnd]

theorem exists_parent?_eq (h : p.fileName? = some name) :
    ∃ front, p.parent? = some (ofSplit p.split.1 front) ∧ IsParent p.split.1 front := by
  refine ⟨dropIdleEnd (dropIdleEnd p.split.2).dropLast, ?_, ?_, ?_⟩
  · rw [parent?]
    dsimp only
    split
    · rename_i hempty
      rw [fileName?, hempty] at h
      cases h
    · rename_i hbody
      rw [hbody]
  · apply (isSplit_split p).of_isPrefix
    exact ((List.rdropWhile_prefix isIdle _).trans (List.dropLast_prefix _)).trans
      (List.rdropWhile_prefix isIdle _)
  · exact List.rdropWhile_idempotent isIdle _

theorem parent?_withFileName {other : Segment} (h : p.fileName? = some name)
    (hother : IsFileName other) : (p.withFileName other).parent? = p.parent? := by
  obtain ⟨front, hparent, hfront⟩ := exists_parent?_eq h
  rw [withFileName, h, hparent]
  dsimp only [Option.isSome, Option.getD]
  rw [if_pos rfl, hfront.join_ofSplit hother, hfront.parent?_concat hother]

theorem parent?_backup (h : p.fileName? = some name) : p.backup.parent? = p.parent? := by
  rw [backup, h]
  exact parent?_withFileName h (isFileName_backupName (isFileName_of_fileName? h))

end Path

namespace Artifact

open FaultyDisk

open Text.Utf8 (encode)

variable {mishaps : DiskCall → Option Mishap} {t : FileTree} {p r : Path} {name : Segment} {keep : Bool}
  {bytes : List UInt8}

/-- Keeping a file overwrites no file but the one that the backup path leads to. -/
theorem read_keepPrevious
    (hr : ∀ place other id, t.find r = .ok (.file place id) → t.find p.backup ≠ .ok (.file other id))
    (hread : t.read r = .ok bytes) :
    (outcome mishaps t (keepPrevious p keep)).2.read r = .ok bytes := by
  have hends : Ends mishaps t (keepPrevious p keep) (fun _ t' => FileTree.Rewrites p.backup t t')
      (fun t' => FileTree.Rewrites p.backup t t') := by
    apply ends_keepPrevious (.refl p.backup t)
    · exact fun _ _ _ _ _ => FileTree.rewrites_copy
    · exact fun _ _ _ _ _ h => h
  have hrewrites : FileTree.Rewrites p.backup t (outcome mishaps t (keepPrevious p keep)).2 := by
    cases hresult : (outcome mishaps t (keepPrevious p keep)).1.toOption with
    | none => exact hends.failed_of_outcome hresult
    | some backup => exact hends.ok_of_outcome hresult
  rw [FileTree.read, FileTree.fileId] at hread ⊢
  cases hfind : t.find r with
  | error fault =>
      rw [hfind] at hread
      cases hread
  | ok found =>
      rw [hfind] at hread
      cases found with
      | directory there => cases hread
      | vacant place closed => cases hread
      | file place id =>
          have hcontent := (hrewrites.contents place id (FileTree.shows_find hfind)
            fun other => hr place other id hfind).2.1
          rw [hrewrites.find_file hfind, ← hread]
          exact congrArg Except.ok hcontent

/-- The backup of a file lies beside it under another name, and the backups of two files have the same
name if the names of the files are shown the same, which is only so if bytes of theirs are no UTF-8.
The copying of a file to its backup, even half done, overwrites no file but the one that the backup path
leads to. -/
theorem backup_apart (hp : p.fileName? = some name) :
    p.backup.parent? = p.parent? ∧
      (∃ kept, p.backup.fileName? = some kept ∧ kept ≠ name) ∧
      (∀ (q : Path) other, q.fileName? = some other →
        (q.backup.fileName? = p.backup.fileName? ↔ Path.shown other = Path.shown name)) ∧
      ∀ mishaps t keep r bytes,
        (∀ place other id, FileTree.find t r = .ok (.file place id) →
          t.find p.backup ≠ .ok (.file other id)) →
        t.read r = .ok bytes → (outcome mishaps t (keepPrevious p keep)).2.read r = .ok bytes := by
  have hkept := Path.fileName?_backup hp
  refine ⟨Path.parent?_backup hp, ⟨_, hkept, Path.encode_backupName_ne name⟩, ?_,
    fun _ _ _ _ _ => read_keepPrevious⟩
  intro q other hq
  rw [hkept, Path.fileName?_backup hq, Option.some.injEq, ← Path.backupName_eq_iff]
  exact ⟨Text.Utf8.encode_injective, congrArg _⟩

/-- A tree with files that are named like the backups of others. -/
def crowdedTree : FileTree where
  nodes := [([encode "data"], .directory), ([encode "data", encode "mesa.db"], .file 0),
    ([encode "data", encode "mesa_old.db"], .file 1),
    ([encode "data", encode "mesa_old_old.db"], .file 2)]
  contents := [(0, [1]), (1, [2]), (2, [3])]

theorem backup_apart_crowdedTree :
    storedPath.fileName? = some (encode "mesa.db") ∧
      storedPath.backup.parent? = some (.ofText "data") ∧
      storedPath.backup.fileName? ≠ some (encode "mesa.db") ∧
      storedPath.backup.backup.fileName? ≠ storedPath.backup.fileName? ∧
      (outcome (fun _ => none) crowdedTree (keepPrevious storedPath true)).2.read storedPath =
        .ok [1] ∧
      (outcome (fun _ => none) crowdedTree (keepPrevious storedPath true)).2.read storedPath.backup =
        .ok [1] ∧
      (outcome (fun _ => none) crowdedTree (keepPrevious storedPath true)).2.read
        storedPath.backup.backup = .ok [3] := by
  have hname : storedPath.fileName? = some (encode "mesa.db") := by decide +kernel
  have hother : storedPath.backup.fileName? = some (encode "mesa_old.db") := by decide +kernel
  have hbackup : crowdedTree.find storedPath.backup =
      .ok (.file [encode "data", encode "mesa_old.db"] 1) := by decide +kernel
  obtain ⟨hparent, ⟨kept, hkept, hne⟩, hbackups, hkeeps⟩ := backup_apart hname
  refine ⟨hname, ?_, ?_, ?_, ?_, by decide +kernel, ?_⟩
  · rw [hparent]
    decide +kernel
  · rw [hkept]
    exact fun h => hne (Option.some.inj h)
  · rw [Ne, hbackups _ _ hother]
    decide +kernel
  · refine hkeeps _ crowdedTree true storedPath [1] ?_ (by decide +kernel)
    have hfind : crowdedTree.find storedPath =
        .ok (.file [encode "data", encode "mesa.db"] 0) := by decide +kernel
    rw [hfind, hbackup]
    rintro place other id ⟨⟩ ⟨⟩
  · refine hkeeps _ crowdedTree true storedPath.backup.backup [3] ?_ (by decide +kernel)
    have hfind : crowdedTree.find storedPath.backup.backup =
        .ok (.file [encode "data", encode "mesa_old_old.db"] 2) := by decide +kernel
    rw [hfind, hbackup]
    rintro place other id ⟨⟩ ⟨⟩

/-- A path whose name is no UTF-8: one byte that starts no character, and an extension. -/
def garbledPath (b : UInt8) : Path := ⟨b :: encode ".db"⟩

/-- Two files with such names, and the backup of the first. -/
def garbledTree : FileTree where
  nodes := [([(garbledPath 0xFF).bytes], .file 0), ([(garbledPath 0xFE).bytes], .file 1),
    ([(garbledPath 0xFF).backup.bytes], .file 2)]
  contents := [(0, [1]), (1, [2]), (2, [3])]

/-- Different files of a directory have the same backup if their names are shown the same, and the backup
of one is lost when the other is kept. A file is lost when its backup path leads to it. -/
theorem not_forall_backup_apart :
    (¬∀ (p q : Path) name other, p.fileName? = some name → q.fileName? = some other →
        p.parent? = q.parent? → other ≠ name → q.backup.fileName? ≠ p.backup.fileName?) ∧
      (¬∀ (t : FileTree) (p q : Path) bytes, p ≠ q → p.parent? = q.parent? →
        t.read q.backup = .ok bytes →
        (outcome (fun _ => none) t (keepPrevious p true)).2.read q.backup = .ok bytes) ∧
      ¬∀ (t : FileTree) (p : Path) bytes, t.read p = .ok bytes →
        (outcome (fun _ => none) t (keepPrevious p true)).2.read p = .ok bytes := by
  refine ⟨?_, ?_, ?_⟩
  · intro h
    have hapart := h (garbledPath 0xFF) (garbledPath 0xFE) _ _ (by decide +kernel) (by decide +kernel)
      (by decide +kernel) (by decide +kernel : (garbledPath 0xFE).bytes ≠ (garbledPath 0xFF).bytes)
    exact hapart (by decide +kernel)
  · intro h
    have hkept := h garbledTree (garbledPath 0xFE) (garbledPath 0xFF) [3] (by decide +kernel)
      (by decide +kernel) (by decide +kernel)
    exact absurd hkept (by decide +kernel)
  · intro h
    have hkept := h linkedTree freshPath [1, 2, 3] (by decide +kernel)
    exact absurd hkept (by decide +kernel)

end Artifact

end NamelistCatalog
