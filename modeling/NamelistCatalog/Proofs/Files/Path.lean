import NamelistCatalog.Files.Path
import NamelistCatalog.Proofs.Text.Bytes
import NamelistCatalog.Proofs.Text.Lines

namespace NamelistCatalog

namespace Path

variable {p base : Path} {name segment : Segment}

@[simp] theorem ofText_inj {s u : String} : ofText s = ofText u ↔ s = u := by
  rw [ofText, ofText, mk.injEq]
  exact ⟨Text.Utf8.encode_injective, congrArg _⟩

/-- A name that a path may end in. -/
structure IsFileName (name : Segment) : Prop where
  visible : isIdle name = false
  notUp : isUp name = false
  noSlash : slash ∉ name

theorem dropIdleEnd_eq_self {body : List Segment} (hlast : body.getLast? = some segment)
    (hvisible : isIdle segment = false) : dropIdleEnd body = body := by
  apply Text.dropEndWhile_eq_self
  intro last hmem
  rw [hlast, Option.mem_some_iff] at hmem
  rw [← hmem, hvisible]

theorem fileName?_eq (hlast : p.split.2.getLast? = some segment) (hvisible : isIdle segment = false)
    (hup : isUp segment = false) : p.fileName? = some segment := by
  rw [fileName?, dropIdleEnd_eq_self hlast hvisible, hlast]
  dsimp only
  rw [hup]
  rfl

theorem mem_fields_of_mem_split (h : segment ∈ p.split.2) :
    segment ∈ Text.fields (· == slash) p.bytes := by
  rw [split] at h
  split at h
  · cases h
  · cases h
  · rename_i hfields
    rw [hfields]
    exact List.mem_cons_of_mem _ h
  · rename_i first body _ _ hfields
    rw [hfields]
    split at h
    · exact List.mem_cons_of_mem _ h
    · exact h

theorem getLast?_split (hlast : (Text.fields (· == slash) p.bytes).getLast? = some name)
    (hvisible : isIdle name = false) : p.split.2.getLast? = some name := by
  have hempty : name ≠ [] := by
    rintro rfl
    cases hvisible
  have hdot : name ≠ [dot] := by
    rintro rfl
    cases hvisible
  rw [split]
  split
  · rename_i hfields
    rw [hfields] at hlast
    cases hlast
  · rename_i hfields
    rw [hfields] at hlast
    exact absurd (Option.some.inj hlast).symm hempty
  · rename_i body hbody hfields
    rw [hfields, List.getLast?_cons_of_ne_nil (by simpa using hbody)] at hlast
    exact hlast
  · rename_i first body _ _ hfields
    rw [hfields] at hlast
    split
    · rename_i hfirst
      cases body with
      | nil => exact absurd (hfirst ▸ Option.some.inj hlast).symm hdot
      | cons next more =>
          rw [List.getLast?_cons_of_ne_nil (by simp)] at hlast
          exact hlast
    · exact hlast

theorem isFileName_of_fileName? (h : p.fileName? = some name) : IsFileName name := by
  rw [fileName?] at h
  split at h
  · rename_i segment hlast
    split at h
    · cases h
    · rename_i hup
      obtain rfl := Option.some.inj h
      have hmem : segment ∈ p.split.2 := by
        have hend := List.mem_of_getLast? hlast
        exact (Text.dropEndWhile_isPrefix isIdle p.split.2).mem hend
      refine ⟨?_, by simpa using hup, ?_⟩
      · exact Text.eq_false_of_mem_getLast?_dropEndWhile hlast
      · intro hslash
        have := Text.eq_false_of_mem_fields (mem_fields_of_mem_split hmem) hslash
        cases this
  · cases h

theorem fileName?_of_getLast?_fields (h : IsFileName name)
    (hlast : (Text.fields (· == slash) p.bytes).getLast? = some name) : p.fileName? = some name :=
  fileName?_eq (getLast?_split hlast h.visible) h.visible h.notUp

theorem fileName?_join (h : IsFileName name) : (base.join ⟨name⟩).fileName? = some name := by
  have hplain : ∀ b ∈ name, (b == slash) = false := by
    intro b hb
    rw [beq_eq_false_iff_ne]
    rintro rfl
    exact h.noSlash hb
  have halone : Text.fields (· == slash) name = [name] := Text.fields_eq_singleton hplain
  have hbehind : ∀ front,
      (Text.fields (· == slash) (front ++ slash :: name)).getLast? = some name := by
    intro front
    rw [Text.getLast?_fields_append_cons (by decide), halone]
    rfl
  apply fileName?_of_getLast?_fields h
  rw [join]
  split
  · rw [halone]
    rfl
  · split
    · rename_i hslash
      obtain ⟨front, hfront⟩ := List.getLast?_eq_some_iff.mp (beq_iff_eq.mp hslash)
      rw [hfront, List.append_assoc, List.singleton_append]
      exact hbehind front
    · exact hbehind base.bytes

theorem fileName?_withFileName (h : IsFileName name) : (p.withFileName name).fileName? = some name :=
  fileName?_join h

theorem isEmpty_directory (p : Path) : p.directory.bytes.isEmpty = false := by
  have hhere : (ofText ".").bytes.isEmpty = false := by decide +kernel
  rw [directory]
  split
  · split
    · exact hhere
    · rename_i hempty
      simpa using hempty
  · exact hhere

end Path

end NamelistCatalog
