import Tabular.Proofs.Engine.Counters

/-!
# Reports

What can be asked of an engine about itself are its statistics, its series and what its sessions
have carried out. All of them say what is in the log of its calls.
-/

namespace Tabular

theorem Label.words_inj {a b : Label} : a.words.toList = b.words.toList ↔ a = b := by
  rw [String.toList_inj]
  constructor
  · cases a <;> cases b <;> simp [Label.words]
  · exact congrArg _

namespace Engine

open Tabular.Action

theorem statusText_inj {a b : Bool} : statusText a = statusText b ↔ a = b := by
  cases a <;> cases b <;> simp [statusText]

/-- What the series of a name and labels say. -/
def readings (e : Engine) (name : String) (labels : List (String × Text)) : List Nat :=
  (e.series.filter fun s => s.name = name ∧ s.labels = labels).map Series.count

/-- What a series with labels says: it is there once it has counted something. -/
def shown (n : Nat) : List Nat := if n = 0 then [] else [n]

/-- The engine reports what is in the log. -/
structure Reports (e : Engine) (log : List Note) : Prop where
  closed_le : log.countP Note.isClosed ≤ log.countP Note.isOpened
  statistics : (statistics.run e).1 =
    ((onCatalog Catalog.databases).run e).1.map fun names =>
      { databases := names
        resident := e.catalog.residents
        sessions := log.countP Note.isOpened - log.countP Note.isClosed
        succeeded := log.countP (Note.ended true)
        failed := log.countP (Note.ended false)
        mode := e.catalog.mode }
  commands : ∀ label success,
    e.readings "tabdb_commands_total"
        [("statement", label.words.toList), ("status", statusText success)] =
      shown (log.countP (Note.isCommand label success))
  timings : ∀ label,
    e.readings "tabdb_command_latency_seconds_count" [("statement", label.words.toList)] =
      shown (log.countP (Note.isCommand label true) + log.countP (Note.isCommand label false))
  executed : ∀ id s, e.session id = .ok s → s.executed = Note.successes (id.getD defaultId) log
  sessions :
    e.readings "tabdb_sessions_active" [] = [log.countP Note.isOpened - log.countP Note.isClosed]
  resident : e.readings "tabdb_databases_resident" [] = [e.catalog.residents.length]

variable {e : Engine} {log : List Note}

/-- Of the series that a tally makes, one is about a key, if the tally has counted it. -/
theorem map_count_filter {κ : Type} [DecidableEq κ] {t : Tally κ} {n : κ → Nat} (ht : t.Counts n)
    {series : κ × Nat → Series} {p : Series → Bool} (k : κ)
    (hp : ∀ x, p (series x) = decide (x.1 = k)) (hcount : ∀ x, (series x).count = x.2) :
    ((t.entries.map series).filter p).map Series.count = shown (n k) := by
  have hfilter : t.entries.filter (p ∘ series) = ((t.get? k).map (k, ·)).toList := by
    rw [← OrderedMap.filter_entries]
    exact List.filter_congr fun x _ => hp x
  rw [List.filter_map, hfilter, ht k, shown]
  split <;> simp [hcount]

/-- Series of other names say nothing. -/
theorem filter_of_name {ss : List Series} {name other : String} (labels : List (String × Text))
    (h : ∀ s ∈ ss, s.name = other) (hne : other ≠ name) :
    ss.filter (fun s => s.name = name ∧ s.labels = labels) = [] :=
  List.filter_eq_nil_iff.2 fun s hs => by simp [h s hs, hne]

theorem name_of_commandSeries : ∀ s ∈ e.commandSeries, s.name = "tabdb_commands_total" := by
  intro s hs
  obtain ⟨x, -, rfl⟩ := List.mem_map.1 hs
  rfl

theorem name_of_timingSeries :
    ∀ s ∈ e.timingSeries, s.name = "tabdb_command_latency_seconds_count" := by
  intro s hs
  obtain ⟨x, -, rfl⟩ := List.mem_map.1 hs
  rfl

theorem name_of_writeSeries : ∀ s ∈ e.writeSeries, s.name = "tabdb_table_persists_total" := by
  intro s hs
  obtain ⟨x, -, rfl⟩ := List.mem_map.1 hs
  rfl

theorem readings_commands (h : e.AddsUp log) (label : Label) (success : Bool) :
    e.readings "tabdb_commands_total"
        [("statement", label.words.toList), ("status", statusText success)] =
      shown (log.countP (Note.isCommand label success)) := by
  rw [readings, series, List.filter_append, List.filter_append, List.filter_append,
    filter_of_name _ name_of_timingSeries (by decide),
    filter_of_name _ name_of_writeSeries (by decide)]
  simp only [List.append_nil, List.map_append]
  rw [commandSeries, map_count_filter h.commands (label, success)]
  · simp
  · rintro ⟨⟨l, b⟩, n⟩
    simp [Label.words_inj, statusText_inj]
  · exact fun _ => rfl

theorem readings_timings (h : e.AddsUp log) (label : Label) :
    e.readings "tabdb_command_latency_seconds_count" [("statement", label.words.toList)] =
      shown (log.countP (Note.isCommand label true) + log.countP (Note.isCommand label false)) := by
  rw [readings, series, List.filter_append, List.filter_append, List.filter_append,
    filter_of_name _ name_of_commandSeries (by decide),
    filter_of_name _ name_of_writeSeries (by decide)]
  simp only [List.nil_append, List.append_nil, List.map_append]
  rw [timingSeries, map_count_filter h.timings label]
  · simp
  · rintro ⟨l, n⟩
    simp [Label.words_inj]
  · exact fun _ => rfl

/-- A series without labels is none of those that have some. -/
theorem filter_unlabelled (e : Engine) (name : String) :
    (e.commandSeries ++ e.timingSeries ++ e.writeSeries).filter
      (fun s => s.name = name ∧ s.labels = []) = [] := by
  refine List.filter_eq_nil_iff.2 fun s hs => ?_
  simp only [List.mem_append, commandSeries, timingSeries, writeSeries, List.mem_map] at hs
  obtain (⟨x, -, rfl⟩ | ⟨x, -, rfl⟩) | ⟨x, -, rfl⟩ := hs <;> simp

theorem readings_sessions (e : Engine) : e.readings "tabdb_sessions_active" [] = [e.gauge] := by
  rw [readings, series, List.filter_append, filter_unlabelled]
  simp

theorem readings_resident (e : Engine) :
    e.readings "tabdb_databases_resident" [] = [e.catalog.gauge] := by
  rw [readings, series, List.filter_append, filter_unlabelled]
  simp

/-- The statistics are what the engine has counted, if its databases can be listed. -/
theorem statistics_result (e : Engine) : (statistics.run e).1 =
    ((onCatalog Catalog.databases).run e).1.map fun names =>
      ⟨names, e.catalog.residents, e.sessions.size - 1, e.succeeded, e.failed, e.catalog.mode⟩ := by
  cases hlist : Archive.databases.run e.catalog.archive with
  | mk r a =>
    have hrun : (onCatalog Catalog.databases).run e =
        (r, { e with catalog := { e.catalog with archive := a } }) := by
      simp only [onCatalog, Catalog.databases, Catalog.onArchive, run_within, hlist]
    rw [statistics, run_bind, hrun]
    cases r <;> rfl

theorem AddsUp.reports (h : e.AddsUp log) : e.Reports log := by
  have hopen := h.sessions
  have hgauge := h.gauge
  have hsessions : e.sessions.size - 1 =
      log.countP Note.isOpened - log.countP Note.isClosed := by omega
  exact {
    closed_le := by omega
    statistics := by rw [statistics_result, hsessions, h.succeeded, h.failed]
    commands := readings_commands h
    timings := readings_timings h
    executed := fun id s hs => h.executed _ s (session_eq_ok_iff.1 hs)
    sessions := by rw [readings_sessions, ← hsessions, ← hgauge, Nat.add_sub_cancel]
    resident := by
      rw [readings_resident, h.resident, Catalog.residents, (Text.sorted_perm _).length_eq,
        OrderedMap.size_eq] }

/-- After any calls a new engine reports what is in the log of them. -/
theorem reports_after_calls (options : Options) (disk : Disk) (cs : List Call) :
    ((start options disk).callAll cs).Reports ((start options disk).log cs) :=
  ((start_addsUp options disk).callAll cs).reports

end Engine

end Tabular
