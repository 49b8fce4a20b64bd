import NamelistCatalog.ContentHash
import NamelistCatalog.Proofs.Name
import NamelistCatalog.Proofs.Text.Bytes
import NamelistCatalog.Proofs.Text.Numeral
import NamelistCatalog.Proofs.Text.Trim

namespace NamelistCatalog.Sha256

/-- Two different messages with the same digest. -/
def Collide (a b : List UInt8) : Prop := a ≠ b ∧ digest a = digest b

theorem hexDigit_injective : ∀ m < 16, ∀ n < 16, hexDigit m = hexDigit n → m = n := by
  decide

theorem hex_cons (b : UInt8) (bytes : List UInt8) :
    (hex (b :: bytes)).toList =
      hexDigit (b.toNat / 16) :: hexDigit (b.toNat % 16) :: (hex bytes).toList := by
  simp [hex]

theorem hex_injective {a b : List UInt8} (h : hex a = hex b) : a = b := by
  induction a generalizing b with
  | nil =>
      cases b with
      | nil => rfl
      | cons y ys =>
          have hlist := congrArg String.toList h
          rw [hex_cons] at hlist
          simp [hex] at hlist
  | cons x xs ih =>
      cases b with
      | nil =>
          have hlist := congrArg String.toList h
          rw [hex_cons] at hlist
          simp [hex] at hlist
      | cons y ys =>
          have hlist := congrArg String.toList h
          rw [hex_cons, hex_cons, List.cons.injEq, List.cons.injEq, String.toList_inj] at hlist
          obtain ⟨hhigh, hlow, hrest⟩ := hlist
          have hx := x.toNat_lt
          have hy := y.toNat_lt
          have hdiv := hexDigit_injective _ (by omega) _ (by omega) hhigh
          have hmod := hexDigit_injective _ (by omega) _ (by omega) hlow
          have hbyte : x = y := UInt8.toNat_inj.mp (by omega)
          rw [hbyte, ih hrest]

end NamelistCatalog.Sha256

namespace NamelistCatalog.Text

/-- A text without the character that ends a field. -/
def NulFree (s : String) : Prop := '\x00' ∉ s.toList

instance (s : String) : Decidable (NulFree s) := inferInstanceAs (Decidable (¬ _))

theorem nulFree_toString (n : Nat) : NulFree (toString n) := by
  intro h
  exact absurd (isDigit_of_mem_toString h) (by decide)

theorem fieldEnd_not_mem_encode {s : String} (h : NulFree s) :
    ContentHash.fieldEnd ∉ Utf8.encode s := by
  intro hmem
  obtain ⟨c, hc, hcode⟩ := Utf8.exists_of_mem_encode (by decide) hmem
  have hnul : c = '\x00' := Char.toNat_inj.mp hcode
  exact h (hnul ▸ hc)

end NamelistCatalog.Text

namespace NamelistCatalog.Name

theorem recordEnd_not_mem_encode {name : String} (h : isValid name = true) :
    ContentHash.recordEnd ∉ Text.Utf8.encode name := by
  intro hmem
  obtain ⟨c, hc, hcode⟩ := Text.Utf8.exists_of_mem_encode (by decide) hmem
  have hle := (toNat_of_isNameChar (isNameChar_of_isValid h hc)).1
  rw [hcode] at hle
  exact absurd hle (by decide)

end NamelistCatalog.Name

namespace NamelistCatalog

def Entry.texts (e : Entry) : List String :=
  [e.name, e.namelist, e.summary, e.doc, e.version.text, e.origin] ++ e.defaultValue.literal?.toList

/-- No text of the entry holds the character that ends a field. -/
def Entry.NulFree (e : Entry) : Prop := ∀ s ∈ e.texts, Text.NulFree s

end NamelistCatalog

namespace NamelistCatalog.ContentHash

theorem append_cons_inj {a b x y : List UInt8} {mark : UInt8} (ha : mark ∉ a) (hb : mark ∉ b)
    (h : a ++ mark :: x = b ++ mark :: y) : a = b ∧ x = y := by
  induction a generalizing b with
  | nil =>
      cases b with
      | nil => exact ⟨rfl, (List.cons.inj h).2⟩
      | cons d ds => exact absurd (by simp [(List.cons.inj h).1]) hb
  | cons c cs ih =>
      cases b with
      | nil => exact absurd (by simp [(List.cons.inj h).1]) ha
      | cons d ds =>
          rw [List.mem_cons, not_or] at ha hb
          obtain ⟨hhead, htail⟩ := List.cons.inj h
          obtain ⟨hrest, hafter⟩ := ih ha.2 hb.2 htail
          exact ⟨by rw [hhead, hrest], hafter⟩

def fieldsBytes (fields : List String) : List UInt8 :=
  fields.flatMap fun field => Text.Utf8.encode field ++ [fieldEnd]

theorem fieldsBytes_cons (field : String) (rest : List String) (after : List UInt8) :
    fieldsBytes (field :: rest) ++ after =
      Text.Utf8.encode field ++ fieldEnd :: (fieldsBytes rest ++ after) := by
  simp [fieldsBytes]

theorem fieldsBytes_append_inj {fs gs : List String} {x y : List UInt8}
    (hfs : ∀ f ∈ fs, Text.NulFree f) (hgs : ∀ g ∈ gs, Text.NulFree g)
    (hlen : fs.length = gs.length) (h : fieldsBytes fs ++ x = fieldsBytes gs ++ y) :
    fs = gs ∧ x = y := by
  induction fs generalizing gs with
  | nil =>
      obtain rfl := List.length_eq_zero_iff.mp hlen.symm
      exact ⟨rfl, h⟩
  | cons f fs ih =>
      cases gs with
      | nil => simp at hlen
      | cons g gs =>
          rw [List.forall_mem_cons] at hfs hgs
          rw [fieldsBytes_cons, fieldsBytes_cons] at h
          obtain ⟨hfield, hrest⟩ := append_cons_inj (Text.fieldEnd_not_mem_encode hfs.1)
            (Text.fieldEnd_not_mem_encode hgs.1) h
          obtain ⟨hfields, hafter⟩ := ih hfs.2 hgs.2 (by simpa using hlen) hrest
          exact ⟨by rw [Text.Utf8.encode_injective hfield, hfields], hafter⟩

theorem nulFree_label (t : ValueType) : Text.NulFree t.label := by
  cases t <;> decide

theorem nulFree_orderField (order : Option UInt32) :
    Text.NulFree ((order.map fun n => toString n.toNat).getD "") := by
  cases order with
  | none => decide
  | some n => exact Text.nulFree_toString n.toNat

theorem nulFree_taggedDefault {d : DefaultValue} (h : ∀ s ∈ d.literal?.toList, Text.NulFree s) :
    Text.NulFree (taggedDefault d) := by
  cases d with
  | unset =>
      rw [taggedDefault]
      decide
  | literal text =>
      have hliteral : Text.NulFree text := h text List.mem_cons_self
      simp only [taggedDefault, Text.NulFree, String.toList_append, List.mem_append, not_or]
      exact ⟨by decide, hliteral⟩

theorem nulFree_of_mem_entryFields {e : Entry} (he : e.NulFree) :
    ∀ field ∈ entryFields e, Text.NulFree field := by
  simp only [Entry.NulFree, Entry.texts, List.forall_mem_append, List.forall_mem_cons] at he
  obtain ⟨⟨hname, hnamelist, hsummary, hdoc, hversion, horigin, -⟩, hdefault⟩ := he
  simp only [entryFields, List.forall_mem_cons]
  exact ⟨hname, hnamelist, nulFree_label e.valueType, Text.nulFree_toString e.dim.toNat,
    nulFree_orderField e.order, nulFree_taggedDefault hdefault, hsummary, hdoc, hversion, horigin,
    by simp⟩

theorem label_injective {s t : ValueType} (h : s.label = t.label) : s = t := by
  have hread := congrArg ValueType.ofLabel? h
  simpa using hread

theorem taggedDefault_injective {a b : DefaultValue} (h : taggedDefault a = taggedDefault b) :
    a = b := by
  have hlist := congrArg String.toList h
  cases a <;> cases b <;> simp [taggedDefault, String.toList_inj] at hlist ⊢
  exact hlist

theorem orderField_injective {a b : Option UInt32}
    (h : (a.map fun n => toString n.toNat).getD "" = (b.map fun n => toString n.toNat).getD "") :
    a = b := by
  cases a with
  | none =>
      cases b with
      | none => rfl
      | some n => exact absurd h.symm (Text.toString_ne_empty n.toNat)
  | some m =>
      cases b with
      | none => exact absurd h (Text.toString_ne_empty m.toNat)
      | some n => exact congrArg some (UInt32.toNat_inj.mp (Text.toString_injective h))

theorem entryFields_injective {a b : Entry} (h : entryFields a = entryFields b) : a = b := by
  cases a
  cases b
  simp only [entryFields, List.cons.injEq] at h
  obtain ⟨hname, hnamelist, htype, hdim, horder, hdefault, hsummary, hdoc, hversion, horigin, -⟩ := h
  simp only [Entry.mk.injEq]
  exact ⟨hname, hsummary, hdoc, taggedDefault_injective hdefault,
    SourceVersion.text_inj.mp hversion, hnamelist,
    label_injective htype, UInt8.toNat_inj.mp (Text.toString_injective hdim),
    orderField_injective horder, horigin⟩

theorem entryBytes_append (e : Entry) (after : List UInt8) :
    entryBytes e ++ after = fieldsBytes (entryFields e) ++ (recordEnd :: after) := by
  simp [entryBytes, fieldsBytes]

theorem entryBytes_append_inj {a b : Entry} {x y : List UInt8} (ha : a.NulFree) (hb : b.NulFree)
    (h : entryBytes a ++ x = entryBytes b ++ y) : a = b ∧ x = y := by
  rw [entryBytes_append, entryBytes_append] at h
  obtain ⟨hfields, hafter⟩ := fieldsBytes_append_inj (nulFree_of_mem_entryFields ha)
    (nulFree_of_mem_entryFields hb) rfl h
  exact ⟨entryFields_injective hfields, (List.cons.inj hafter).2⟩

theorem entryBytes_ne_nil (e : Entry) : entryBytes e ≠ [] := by
  simp [entryBytes]

theorem flatMap_entryBytes_injective {as bs : List Entry} (has : ∀ a ∈ as, a.NulFree)
    (hbs : ∀ b ∈ bs, b.NulFree) (h : as.flatMap entryBytes = bs.flatMap entryBytes) : as = bs := by
  induction as generalizing bs with
  | nil =>
      cases bs with
      | nil => rfl
      | cons b bs => simp [entryBytes_ne_nil] at h
  | cons a as ih =>
      cases bs with
      | nil => simp [entryBytes_ne_nil] at h
      | cons b bs =>
          rw [List.forall_mem_cons] at has hbs
          rw [List.flatMap_cons, List.flatMap_cons] at h
          obtain ⟨hhead, htail⟩ := entryBytes_append_inj has.1 hbs.1 h
          rw [hhead, ih has.2 hbs.2 htail]

theorem littleEndian_append_inj {m n : UInt32} {x y : List UInt8}
    (h : littleEndian m ++ x = littleEndian n ++ y) : m = n ∧ x = y := by
  obtain ⟨hword, hafter⟩ := List.append_inj h rfl
  refine ⟨UInt32.toNat_inj.mp ?_, hafter⟩
  simp only [littleEndian, List.cons.injEq, ← UInt8.toNat_inj, UInt8.toNat_ofNat', and_true] at hword
  have hm := m.toNat_lt
  have hn := n.toNat_lt
  omega

theorem fieldEnd_not_mem_versionBytes {v : String} {after : List UInt8} (hv : Text.NulFree v)
    (hafter : fieldEnd ∉ after) : fieldEnd ∉ Text.Utf8.encode v ++ recordEnd :: after := by
  simp only [List.mem_append, List.mem_cons, not_or]
  exact ⟨Text.fieldEnd_not_mem_encode hv, by decide, hafter⟩

theorem append_cons_inj_left {a b x y : List UInt8} {mark : UInt8} (hx : mark ∉ x) (hy : mark ∉ y)
    (h : a ++ mark :: x = b ++ mark :: y) : a = b := by
  have hreverse : x.reverse ++ mark :: a.reverse = y.reverse ++ mark :: b.reverse := by
    have hlist := congrArg List.reverse h
    simpa using hlist
  have hends := append_cons_inj (by simpa using hx) (by simpa using hy) hreverse
  exact List.reverse_inj.mp hends.2

def versionBytes (v : String) (entries : List Entry) : List UInt8 :=
  Text.Utf8.encode v ++ recordEnd :: entries.flatMap entryBytes

theorem versionBytes_cons (v : String) (e : Entry) (rest : List Entry) :
    ∃ after, versionBytes v (e :: rest) =
      (Text.Utf8.encode v ++ recordEnd :: Text.Utf8.encode e.name) ++ fieldEnd :: after := by
  rw [versionBytes, List.flatMap_cons, entryBytes_append, entryFields, fieldsBytes_cons]
  exact ⟨_, by rw [List.append_assoc, List.cons_append]⟩

theorem versionBytes_cons_ne_nil {v w : String} {e : Entry} {rest : List Entry}
    (hw : Text.NulFree w) : versionBytes v (e :: rest) ≠ versionBytes w [] := by
  intro h
  obtain ⟨after, hafter⟩ := versionBytes_cons v e rest
  have habsent : fieldEnd ∉ versionBytes w [] := fieldEnd_not_mem_versionBytes hw (by simp)
  rw [← h, hafter] at habsent
  simp at habsent

/-- A version may hold the byte that ends it, so its end is found from the other side: it is the last
one in front of the first name. -/
theorem encode_eq_of_versionBytes_cons {v w : String} {a b : Entry} {as bs : List Entry}
    (hv : Text.NulFree v) (hw : Text.NulFree w) (ha : a.NulFree) (hb : b.NulFree)
    (haName : Name.isValid a.name = true) (hbName : Name.isValid b.name = true)
    (h : versionBytes v (a :: as) = versionBytes w (b :: bs)) :
    Text.Utf8.encode v = Text.Utf8.encode w := by
  have hname : ∀ {e : Entry}, e.NulFree → fieldEnd ∉ Text.Utf8.encode e.name :=
    fun he => Text.fieldEnd_not_mem_encode (he _ (by simp [Entry.texts]))
  obtain ⟨after, hafter⟩ := versionBytes_cons v a as
  obtain ⟨after', hafter'⟩ := versionBytes_cons w b bs
  rw [hafter, hafter'] at h
  have hfront := (append_cons_inj (fieldEnd_not_mem_versionBytes hv (hname ha))
    (fieldEnd_not_mem_versionBytes hw (hname hb)) h).1
  exact append_cons_inj_left (Name.recordEnd_not_mem_encode haName)
    (Name.recordEnd_not_mem_encode hbName) hfront

theorem versionBytes_injective {v w : String} {as bs : List Entry}
    (hv : Text.NulFree v) (hw : Text.NulFree w)
    (has : ∀ a ∈ as, a.NulFree) (hbs : ∀ b ∈ bs, b.NulFree)
    (hasNames : ∀ a ∈ as, Name.isValid a.name = true)
    (hbsNames : ∀ b ∈ bs, Name.isValid b.name = true)
    (h : versionBytes v as = versionBytes w bs) : v = w ∧ as = bs := by
  have hversion : Text.Utf8.encode v = Text.Utf8.encode w := by
    cases as with
    | nil =>
        cases bs with
        | nil => exact List.append_cancel_right h
        | cons b bs => exact absurd h.symm (versionBytes_cons_ne_nil hv)
    | cons a as =>
        cases bs with
        | nil => exact absurd h (versionBytes_cons_ne_nil hw)
        | cons b bs =>
            rw [List.forall_mem_cons] at has hbs hasNames hbsNames
            exact encode_eq_of_versionBytes_cons hv hw has.1 hbs.1 hasNames.1 hbsNames.1 h
  rw [versionBytes, versionBytes, hversion] at h
  have hentries := (List.cons.inj (List.append_cancel_left h)).2
  exact ⟨Text.Utf8.encode_injective hversion, flatMap_entryBytes_injective has hbs hentries⟩

end NamelistCatalog.ContentHash

namespace NamelistCatalog.Catalog

/-- The bytes that the content hash of a catalog covers. -/
def hashedBytes (c : Catalog) : List UInt8 :=
  ContentHash.bytes c.info.schemaVersion c.info.sourceVersion c.entries.toList

/-- No text that the content hash covers holds the character that ends a field. -/
def NulFree (c : Catalog) : Prop :=
  Text.NulFree c.info.sourceVersion.text ∧ ∀ e ∈ c.entries, e.NulFree

theorem isValid_name (c : Catalog) {e : Entry} (h : e ∈ c.entries.toList) :
    Name.isValid e.name = true :=
  (Entry.check_eq_none_iff.mp (c.listed.1 e h)).1

theorem ext_fields {c d : Catalog} (hschema : c.info.schemaVersion = d.info.schemaVersion)
    (hversion : c.info.sourceVersion = d.info.sourceVersion)
    (htime : c.info.generatedAt = d.info.generatedAt)
    (hentries : c.entries.toList = d.entries.toList) : c = d := by
  apply Catalog.ext
  · cases hc : c.info
    cases hd : d.info
    simp only [hc, hd] at hschema hversion htime
    rw [hschema, hversion, htime]
  · exact Array.toList_inj.mp hentries

theorem hashedBytes_eq_of_contentHash_eq {c d : Catalog} (h : c.contentHash = d.contentHash)
    (hsha : ¬Sha256.Collide c.hashedBytes d.hashedBytes) : c.hashedBytes = d.hashedBytes := by
  by_cases heq : c.hashedBytes = d.hashedBytes
  · exact heq
  · exact absurd ⟨heq, Sha256.hex_injective h⟩ hsha

/-- The catalogs agree in all that the content hash covers. -/
structure SameContent (c d : Catalog) : Prop where
  schemaVersion : c.info.schemaVersion = d.info.schemaVersion
  sourceVersion : c.info.sourceVersion = d.info.sourceVersion
  entries : c.entries = d.entries

theorem sameContent_of_hashedBytes_eq {c d : Catalog} (hc : c.NulFree) (hd : d.NulFree)
    (h : c.hashedBytes = d.hashedBytes) : c.SameContent d := by
  simp only [hashedBytes, ContentHash.bytes, List.append_assoc] at h
  obtain ⟨hschema, hrest⟩ := ContentHash.littleEndian_append_inj h
  obtain ⟨hversion, hentries⟩ := ContentHash.versionBytes_injective hc.1 hd.1
    (fun e he => hc.2 e (by simpa using he)) (fun e he => hd.2 e (by simpa using he))
    (fun e he => c.isValid_name he) (fun e he => d.isValid_name he)
    (by simpa [ContentHash.versionBytes] using hrest)
  exact ⟨hschema, SourceVersion.text_inj.mp hversion, Array.toList_inj.mp hentries⟩

/-- Catalogs with the same hashed bytes differ at most in the time of their build. -/
theorem eq_of_hashedBytes_eq {c d : Catalog} (hc : c.NulFree) (hd : d.NulFree)
    (htime : c.info.generatedAt = d.info.generatedAt) (h : c.hashedBytes = d.hashedBytes) :
    c = d := by
  obtain ⟨hschema, hversion, hentries⟩ := sameContent_of_hashedBytes_eq hc hd h
  exact ext_fields hschema hversion htime (congrArg Array.toList hentries)

end NamelistCatalog.Catalog
