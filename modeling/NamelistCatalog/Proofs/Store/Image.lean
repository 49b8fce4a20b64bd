import NamelistCatalog.Proofs.Text.Bytes
import NamelistCatalog.Proofs.Text.Lines
import NamelistCatalog.Proofs.Text.Numeral
import NamelistCatalog.Store.Image
import NamelistCatalog.Store.Sqlite

namespace NamelistCatalog.Store

namespace Image

theorem escape_cons {c : Char} (hslash : c ≠ '\\') (hfeed : c ≠ '\n') (rest : List Char) :
    escape (c :: rest) = c :: escape rest := by
  rw [escape]
  · exact hslash
  · exact hfeed

theorem unescape?_cons {c : Char} (hslash : c ≠ '\\') (rest : List Char) :
    unescape? (c :: rest) = (unescape? rest).map (c :: ·) := by
  rw [unescape?, if_neg hslash]
  · exact fun h => absurd h hslash
  · exact fun _ h => absurd h hslash
  · exact fun _ h => absurd h hslash

theorem unescape?_escape (s : List Char) : unescape? (escape s) = some s := by
  induction s with
  | nil => rfl
  | cons c rest ih =>
      by_cases hslash : c = '\\'
      · subst hslash
        rw [escape, unescape?, ih]
        rfl
      · by_cases hfeed : c = '\n'
        · subst hfeed
          rw [escape, unescape?, ih]
          rfl
        · rw [escape_cons hslash hfeed, unescape?_cons hslash, ih]
          rfl

theorem newline_not_mem_escape (s : List Char) : '\n' ∉ escape s := by
  induction s with
  | nil => exact List.not_mem_nil
  | cons c rest ih =>
      by_cases hslash : c = '\\'
      · subst hslash
        rw [escape]
        simp [ih]
      · by_cases hfeed : c = '\n'
        · subst hfeed
          rw [escape]
          simp [ih]
        · rw [escape_cons hslash hfeed]
          simp [ih, Ne.symm hfeed]

theorem nat?_toString (n : Nat) : nat? (toString n).toList = some n := by
  rw [nat?, if_pos (Text.isDigits_toString n), Text.decimalValue_toString]

theorem int?_toString (n : Int) : int? (toString n).toList = some n := by
  cases n with
  | ofNat m =>
      have hplain : (toString m).toList.head? ≠ some '-' := by
        intro h
        have hdigit := Text.isDigit_of_mem_toString (List.mem_of_mem_head? h)
        exact absurd hdigit (by decide)
      change int? (toString m).toList = _
      rw [int?, nat?_toString]
      · rfl
      · intro digits h
        exact hplain (by rw [h]; rfl)
  | negSucc m =>
      have htext : (toString (Int.negSucc m)).toList = '-' :: (toString (m + 1)).toList := by
        change ("-" ++ toString (m + 1)).toList = _
        rw [String.toList_append]
        rfl
      rw [htext, int?, nat?_toString]
      rfl

theorem numberCell?_ofNumberCell (cell : NumberCell) : numberCell? (ofNumberCell cell) = some cell := by
  cases cell with
  | number n =>
      rw [numberCell?, ofNumberCell, String.toList_append]
      change (int? (toString n).toList).map NumberCell.number = _
      rw [int?_toString]
      rfl
  | real s =>
      rw [numberCell?, ofNumberCell, String.toList_append]
      change some (NumberCell.real (String.ofList s.toList)) = _
      rw [String.ofList_toList]
  | text s =>
      rw [numberCell?, ofNumberCell, String.toList_append]
      change some (NumberCell.text (String.ofList s.toList)) = _
      rw [String.ofList_toList]

theorem option?_ofOption (field : Option String) : option? (ofOption field) = some field := by
  cases field with
  | none => rfl
  | some s =>
      rw [option?, ofOption, String.toList_append]
      change some (some (String.ofList s.toList)) = _
      rw [String.ofList_toList]

theorem row?_rowFields (r : EntryRow) (rest : List String) :
    row? (rowFields r ++ rest) = some (r, rest) := by
  have hord : (r.ord.map ofNumberCell).mapM numberCell? = some r.ord := by
    cases r.ord with
    | none => rfl
    | some cell =>
        change (numberCell? (ofNumberCell cell)).map some = _
        rw [numberCell?_ofNumberCell]
        rfl
  have hid := nat?_toString r.id
  rw [Text.toList_toString] at hid
  simp [row?, rowFields, hid, numberCell?_ofNumberCell, option?_ofOption, hord]

theorem pair?_append (p : String × String) (rest : List String) :
    pair? ([p.1, p.2] ++ rest) = some (p, rest) := rfl

section Tables

variable {α : Type} {fields : α → List String} {row? : List String → Option (α × List String)}

theorem rows?_flatMap (hrow : ∀ a rest, row? (fields a ++ rest) = some (a, rest)) (rows : List α)
    (rest : List String) : rows? row? rows.length (rows.flatMap fields ++ rest) = some (rows, rest) := by
  induction rows with
  | nil => rfl
  | cons a more ih =>
      rw [List.length_cons, List.flatMap_cons, List.append_assoc, rows?, hrow]
      simp [ih]

theorem table?_tableFields (hrow : ∀ a rest, row? (fields a ++ rest) = some (a, rest))
    (table : Option (List α)) (rest : List String) :
    table? row? (tableFields fields table ++ rest) = some (table, rest) := by
  cases table with
  | none => rfl
  | some rows =>
      have hcount : option? ("+" ++ toString rows.length) = some (some (toString rows.length)) :=
        option?_ofOption (some (toString rows.length))
      have hnumber := nat?_toString rows.length
      rw [Text.toList_toString] at hnumber
      rw [tableFields, List.cons_append, table?, hcount]
      simp [hnumber, rows?_flatMap hrow]

end Tables

theorem ofFields?_fields (s : Store) : ofFields? (fields s) = some s := by
  have hmetadata := table?_tableFields pair?_append s.metadata []
  rw [List.append_nil] at hmetadata
  simp [ofFields?, fields, numberCell?_ofNumberCell, table?_tableFields row?_rowFields, hmetadata]

theorem lines_image (s : Store) :
    Text.fields (· == '\n') (Text.joinWith ['\n']
      ((fields s).map fun field => escape field.toList)) =
      (fields s).map fun field => escape field.toList := by
  apply Text.fields_joinWith
  · simp [fields]
  · intro line hline
    obtain ⟨field, -, rfl⟩ := List.mem_map.mp hline
    exact newline_not_mem_escape field.toList

theorem mapM_unescape? (fields : List String) :
    (fields.map fun field => escape field.toList).mapM unescape? =
      some (fields.map String.toList) := by
  induction fields with
  | nil => rfl
  | cons field rest ih => simp [List.mapM_cons, unescape?_escape, ih]

theorem two_le_length_image (s : Store) : 2 ≤ s.image.length := by
  obtain ⟨more, hmore⟩ : ∃ more, Text.joinWith ['\n']
      ((fields s).map fun field => escape field.toList) = 'n' :: 'a' :: more := ⟨_, rfl⟩
  have hone : ∀ c, 1 ≤ (String.utf8EncodeChar c).length := by
    intro c
    rw [String.length_utf8EncodeChar]
    exact c.utf8Size_pos
  have hfirst := hone 'n'
  have hsecond := hone 'a'
  rw [image, hmore, Text.Utf8.encode_eq_flatMap, String.toList_ofList, List.flatMap_cons,
    List.flatMap_cons, List.length_append, List.length_append]
  omega

end Image

/-- The bytes of an artifact are read back as the store that they were made for. -/
theorem ofImage?_image (s : Store) : ofImage? s.image = some s := by
  have hlong : ¬s.image.length ≤ 1 := Nat.not_le.mpr (Image.two_le_length_image s)
  rw [ofImage?, if_neg hlong, image, Text.Utf8.decode?_encode, String.toList_ofList]
  simp only [Option.bind_eq_bind, Option.bind_some, Image.lines_image, Image.mapM_unescape?,
    List.map_map]
  have hsame : (Image.fields s).map (String.ofList ∘ String.toList) = Image.fields s := by
    simp [Function.comp_def]
  rw [hsame, Image.ofFields?_fields]

end NamelistCatalog.Store

namespace NamelistCatalog.TextEngine

variable {t : FileTree} {p : Path} {place : Location} {id : Nat}

theorem bind_apply {α β : Type} (x : StateM FileTree α) (f : α → StateM FileTree β) :
    (x >>= f) t = f (x t).1 (x t).2 :=
  rfl

theorem bytes?_apply (p : Path) (t : FileTree) :
    (bytes? p : StateM FileTree _) t = ((t.read p).toOption, t) := by
  have hread : (Disk.read p : StateM FileTree _) t = (t.read p, t) := rfl
  rw [bytes?, bind_apply, hread]
  cases t.read p <;> rfl

theorem read_toOption_of_kind (h : t.kind p = .error .notFound) : (t.read p).toOption = none := by
  rw [FileTree.kind] at h
  rw [FileTree.read, FileTree.fileId]
  revert h
  cases t.find p with
  | error fault => exact fun _ => rfl
  | ok found =>
      cases found with
      | directory there => nofun
      | file place id => nofun
      | vacant place closed => exact fun _ => rfl

theorem loadFile_image {s : Store} (hfind : t.find p = .ok (.file place id))
    (hcontent : t.content id = s.image) (halone : t.IsAlone p) :
    (loadFile p : StateM FileTree _) t = (.ok s, t) := by
  have hread : (t.read p).toOption = some s.image := by
    rw [FileTree.read, FileTree.fileId, hfind, ← hcontent]
    rfl
  rw [loadFile, bind_apply, bytes?_apply, hread]
  dsimp only
  rw [bind_apply, bytes?_apply, read_toOption_of_kind (halone "-journal" (by simp))]
  dsimp only
  rw [bind_apply, bytes?_apply, read_toOption_of_kind (halone "-wal" (by simp))]
  have hload := Store.ofImage?_image s
  dsimp only [Option.any, Option.filter, Option.bind]
  rw [hload]
  rfl

theorem saveFile_of_find {s : Store} (hfind : t.find p = .ok (.file place id)) :
    (saveFile p s : StateM FileTree _) t = (.ok (), t.setContent id s.image) := by
  have hwrite : (Disk.write p s.image : StateM FileTree _) t =
      (.ok (), t.setContent id s.image) := by
    change FileTree.attempt (fun t => t.write p s.image) t = _
    rw [FileTree.attempt, FileTree.write, hfind]
  rw [saveFile, bind_apply, hwrite]
  rfl

/-- On a tree of files the engine is one that artifacts can rest on. -/
instance : Sqlite where
  Fits _ := True
  image := Store.image
  save t p s := (storage.save p s : StateM FileTree _) t
  load t p := ((storage.load p : StateM FileTree _) t).1
  Opens p := fileOf? p = some p
  save_empty {t p place id} s hopens hfind _ _ := by
    left
    refine ⟨trivial, ?_⟩
    change (match fileOf? p with
      | none => pure (Except.ok ())
      | some file => saveFile file s : StateM FileTree _) t = _
    rw [hopens]
    exact saveFile_of_find hfind
  load_image {t p place id s} _ hopens _ hfind hcontent halone := by
    change ((match fileOf? p with
      | none => pure (Except.ok {})
      | some file => loadFile file : StateM FileTree _) t).1 = _
    rw [hopens]
    exact congrArg Prod.fst (loadFile_image hfind hcontent halone)

end NamelistCatalog.TextEngine
