import Tabular.Proofs.Except
import Tabular.Settings.Environment

/-!
# Settings within their bounds

Whatever the environment gives for a field is checked before it is taken, and the standard values
pass the same checks: settings that an environment makes are within their bounds.
-/

namespace Tabular

structure ServerSettings.Allowed (s : ServerSettings) : Prop where
  port : Settings.isPort s.port
  httpPort : Settings.isPort s.httpPort
  metricsPort : Settings.isPort s.metricsPort
  maxLineBytes : Settings.isLineLimit s.maxLineBytes

/-- Ports and the limit of a line are within their bounds, and the suffix has its form. -/
structure Settings.Allowed (s : Settings) : Prop where
  server : s.server.Allowed
  suffix : Settings.isSuffix s.storage.suffix

namespace Settings

theorem standard_allowed : standard.Allowed := ⟨by constructor <;> decide, by decide⟩

/-! ## One field -/

theorem filter_passes {α : Type} {o : Option α} {check : α → Bool} {a : α}
    (h : o.filter check = some a) : check a := by
  simp only [Option.filter_eq_some_iff] at h
  exact h.2

theorem port?_passes {v : Json} {n : Int} (h : port? v = some n) : isPort n := filter_passes h

theorem lineLimit?_passes {v : Json} {n : Int} (h : lineLimit? v = some n) : isLineLimit n :=
  filter_passes h

theorem suffix?_passes {v : Json} {t : Text} (h : suffix? v = some t) : isSuffix t :=
  filter_passes h

section Sections

variable {α : Type} {standard : α}

/-- A field holds what its reader lets through, or the standard value. -/
theorem field_passes {check : α → Bool} {m : OrderedMap Text Json} {part name : String}
    {read : Json → Option α} (hs : check standard) (hr : ∀ v a, read v = some a → check a) :
    check (field m part name read standard).1 := by
  simp only [field]
  split
  · exact hs
  · next v _ =>
    cases hv : read v with
    | none => exact hs
    | some a => exact hr v a hv

theorem ofGiven_passes {P : α → Prop} {name : String} {read : OrderedMap Text Json → α × List Text}
    {g : Given} (hs : P standard) (hr : ∀ m, P (read m).1) : P (ofGiven name standard read g).1 := by
  cases g with
  | nothing => exact hs
  | malformed => exact hs
  | members m => exact hr m

end Sections

/-! ## Sections -/

theorem readServer_allowed (m : OrderedMap Text Json) : (readServer m).1.Allowed where
  port := field_passes standard_allowed.server.port fun _ _ => port?_passes
  httpPort := field_passes standard_allowed.server.httpPort fun _ _ => port?_passes
  metricsPort := field_passes standard_allowed.server.metricsPort fun _ _ => port?_passes
  maxLineBytes := field_passes standard_allowed.server.maxLineBytes fun _ _ => lineLimit?_passes

theorem readStorage_suffix (m : OrderedMap Text Json) : isSuffix (readStorage m).1.suffix :=
  field_passes standard_allowed.suffix fun _ _ => suffix?_passes

/-- An environment makes no settings but such as are within their bounds. -/
theorem ofEnvironment_allowed {env : List (Text × Text)} {s : Settings}
    (h : ofEnvironment env = .ok s) : s.Allowed := by
  simp only [ofEnvironment, Except.bind_eq_ok_iff] at h
  obtain ⟨storageGiven, -, serverGiven, -, reportGiven, -, h⟩ := h
  split at h
  · cases Except.pure_eq_ok_iff.1 h
    exact ⟨ofGiven_passes standard_allowed.server readServer_allowed,
      ofGiven_passes (P := fun s : StorageSettings => isSuffix s.suffix) standard_allowed.suffix
        readStorage_suffix⟩
  · cases h

end Settings

end Tabular
