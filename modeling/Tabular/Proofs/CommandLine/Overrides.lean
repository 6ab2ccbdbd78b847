import Tabular.CommandLine
import Tabular.Proofs.Settings.Allowed

/-!
# What a command line puts in force

The arguments make a list of options, each a flag that stands alone or has a value. Taking an
option changes the one field that its flag is about. So after all of them a field has what the last
value for it says, and the fields that no option is about are as the settings have them.

Settings from the environment are within their bounds, but nothing checks an option against them:
the configuration is within its bounds just if the ports given are.
-/

namespace Tabular

/-- Ports and the limit of a line are within their bounds, the suffix has its form, and what is
chosen is one of its choices. -/
structure Configuration.Allowed (c : Configuration) : Prop where
  port : ∃ n, c.port = some n ∧ Settings.isPort n
  httpPort : ∃ n, c.httpPort = some n ∧ Settings.isPort n
  metricsPort : ∃ n, c.metricsPort = some n ∧ Settings.isPort n
  maxLineBytes : Settings.isLineLimit c.maxLineBytes
  suffix : Settings.isSuffix c.suffix
  mode : c.mode ∈ [InsertMode.whole, InsertMode.append]
  level : ∃ l ∈ LogLevel.all, c.level = some l
  format : ∃ f ∈ LogFormat.all, c.format = some f

namespace CommandLine

/-! ## Options -/

/-- The options that arguments make: flags, with the values that they take. -/
def options : List Argument → List (Flag × Option Text)
  | [] => []
  | .separator :: rest => options rest
  | .unknown _ :: rest => options rest
  | .plain _ :: rest => options rest
  | .flag flag (some value) :: rest => (flag, some value) :: options rest
  | .flag flag none :: .plain t :: rest =>
    (flag, if flag.takesValue then some t else none) :: options rest
  | .flag flag none :: rest => (flag, none) :: options rest

/-- The options of a command line. -/
def optionsOf (ts : List Text) : List (Flag × Option Text) :=
  match arguments ts with
  | .ok as => options as
  | .error _ => []

/-- The command line after one more option. -/
def use (c : CommandLine) : Flag × Option Text → Except Stop CommandLine
  | (flag, some value) => c.give flag value
  | (flag, none) => c.raise flag

variable {c c' : CommandLine} {as : List Argument} {os : List (Flag × Option Text)}

theorem exists_take_of_kept {t : Text} {others : List Text}
    (h : (do let (c, others) ← take c as; return (c, t :: others)) = Except.ok (c', others)) :
    ∃ others, take c as = .ok (c', others) := by
  obtain ⟨⟨d, kept⟩, hr, h⟩ := Except.bind_eq_ok_iff.1 h
  cases Except.pure_eq_ok_iff.1 h
  exact ⟨kept, hr⟩

/-- To take arguments is to use their options in order. -/
theorem foldlM_options {others : List Text} (h : take c as = .ok (c', others)) :
    (options as).foldlM use c = .ok c' := by
  induction as using options.induct generalizing c others with
  | case1 =>
    cases h
    rfl
  | case2 rest ih =>
    obtain ⟨_, hr⟩ := exists_take_of_kept h
    exact ih hr
  | case3 t rest ih =>
    obtain ⟨_, hr⟩ := exists_take_of_kept h
    exact ih hr
  | case4 t rest ih =>
    obtain ⟨_, hr⟩ := exists_take_of_kept h
    exact ih hr
  | case5 flag value rest ih =>
    obtain ⟨d, hd, hr⟩ := Except.bind_eq_ok_iff.1 h
    exact Except.bind_eq_ok_iff.2 ⟨d, hd, ih hr⟩
  | case6 flag t rest ih =>
    rw [take] at h
    split at h
    · next hf =>
      obtain ⟨d, hd, hr⟩ := Except.bind_eq_ok_iff.1 h
      rw [options, if_pos hf]
      exact Except.bind_eq_ok_iff.2 ⟨d, hd, ih hr⟩
    · next hf =>
      obtain ⟨d, hd, h⟩ := Except.bind_eq_ok_iff.1 h
      obtain ⟨_, hr⟩ := exists_take_of_kept h
      rw [options, if_neg hf]
      exact Except.bind_eq_ok_iff.2 ⟨d, hd, ih hr⟩
  | case7 flag rest hp ih =>
    rw [take] at h
    · obtain ⟨d, hd, hr⟩ := Except.bind_eq_ok_iff.1 h
      rw [options]
      · exact Except.bind_eq_ok_iff.2 ⟨d, hd, ih hr⟩
      · exact hp
    · exact hp

theorem foldlM_optionsOf {ts : List Text} (h : ofArguments ts = .ok c) :
    (optionsOf ts).foldlM use empty = .ok c := by
  obtain ⟨as, ha, h⟩ := Except.bind_eq_ok_iff.1 h
  obtain ⟨⟨d, others⟩, ht, h⟩ := Except.bind_eq_ok_iff.1 h
  have hd : d = c := by
    dsimp only at h
    split at h
    · exact Except.pure_eq_ok_iff.1 h
    · cases h
  rw [optionsOf, Except.mapError_eq_ok_iff.1 ha, ← hd]
  exact foldlM_options ht

/-! ## One option -/

/-- What a value makes of its field. -/
def Reading {α : Type} (value? : Text → Option α) (v : Text) (o : Override α) : Prop :=
  if v = ['-', '-'] then o = .blank else ∃ a, value? v = some a ∧ o = .value a

theorem reading_of_override {α : Type} {read : Text → Except Stop α} {value? : Text → Option α}
    {v : Text} {o : Override α} (hr : ∀ a, read v = .ok a → value? v = some a)
    (h : override v read = .ok o) : Reading value? v o := by
  rw [override] at h
  rw [Reading]
  split at h
  · next hv =>
    rw [if_pos hv]
    cases h
    rfl
  · next hv =>
    rw [if_neg hv]
    obtain ⟨a, ha, rfl⟩ := Except.map_eq_ok_iff.1 h
    exact ⟨a, hr a ha, rfl⟩

theorem integer?_of_integer {flag : Flag} {v : Text} {n : Int} (h : integer flag v = .ok n) :
    Numeral.integer? v = some n := by
  rw [integer] at h
  split at h
  · next hv =>
    cases h
    exact hv
  · cases h

theorem find?_of_choice {α : Type} {flag : Flag} {choices : List α} {text : α → Text} {v : Text}
    {a : α} (h : choice flag choices text v = .ok a) : choices.find? (text · == v) = some a := by
  rw [choice] at h
  split at h
  · next hv =>
    cases h
    exact hv
  · cases h

/-- How a flag with a value changes the command line. -/
inductive Given (c : CommandLine) (v : Text) : Flag → CommandLine → Prop
  | host {o : Override Text} (h : Reading some v o) : Given c v .host { c with host := o }
  | port {o : Override Int} (h : Reading Numeral.integer? v o) :
    Given c v .port { c with port := o }
  | directory {o : Override Text} (h : Reading (fun t => some (Text.plainPath t)) v o) :
    Given c v .directory { c with directory := o }
  | httpPort {o : Override Int} (h : Reading Numeral.integer? v o) :
    Given c v .httpPort { c with httpPort := o }
  | metricsPort {o : Override Int} (h : Reading Numeral.integer? v o) :
    Given c v .metricsPort { c with metricsPort := o }
  | level {o : Override LogLevel} (h : Reading LogLevel.ofText? v o) :
    Given c v .level { c with level := o }
  | format {o : Override LogFormat} (h : Reading LogFormat.ofText? v o) :
    Given c v .format { c with format := o }

theorem given_of_give {flag : Flag} {v : Text} (h : c.give flag v = .ok c') :
    Given c v flag c' := by
  cases flag with
  | help => cases h
  | http => cases h
  | noMetrics => cases h
  | version => cases h
  | host =>
    obtain ⟨o, ho, rfl⟩ := Except.map_eq_ok_iff.1 h
    exact .host (reading_of_override (fun _ ha => congrArg some (Except.ok.inj ha)) ho)
  | port =>
    obtain ⟨o, ho, rfl⟩ := Except.map_eq_ok_iff.1 h
    exact .port (reading_of_override (fun _ => integer?_of_integer) ho)
  | directory =>
    obtain ⟨o, ho, rfl⟩ := Except.map_eq_ok_iff.1 h
    exact .directory (reading_of_override (fun _ ha => congrArg some (Except.ok.inj ha)) ho)
  | httpPort =>
    obtain ⟨o, ho, rfl⟩ := Except.map_eq_ok_iff.1 h
    exact .httpPort (reading_of_override (fun _ => integer?_of_integer) ho)
  | metricsPort =>
    obtain ⟨o, ho, rfl⟩ := Except.map_eq_ok_iff.1 h
    exact .metricsPort (reading_of_override (fun _ => integer?_of_integer) ho)
  | level =>
    obtain ⟨o, ho, rfl⟩ := Except.map_eq_ok_iff.1 h
    exact .level (reading_of_override (fun _ => find?_of_choice) ho)
  | format =>
    obtain ⟨o, ho, rfl⟩ := Except.map_eq_ok_iff.1 h
    exact .format (reading_of_override (fun _ => find?_of_choice) ho)

/-- How a flag without a value changes the command line. -/
inductive Raised (c : CommandLine) : Flag → CommandLine → Prop
  | http : Raised c .http { c with http := true }
  | noMetrics : Raised c .noMetrics { c with noMetrics := true }

theorem raised_of_raise {flag : Flag} (h : c.raise flag = .ok c') : Raised c flag c' := by
  cases flag <;> cases h
  · exact .http
  · exact .noMetrics

/-! ## All options -/

/-- The value that an option has for a flag. -/
def valueFor (flag : Flag) (o : Flag × Option Text) : Option Text :=
  if o.1 = flag then o.2 else none

/-- The last value that options have for a flag. -/
def lastValue (flag : Flag) : List (Flag × Option Text) → Option Text
  | [] => none
  | o :: os => (lastValue flag os).or (valueFor flag o)

section Fields

variable {α : Type} {flag : Flag} {get : CommandLine → Override α} {value? : Text → Option α}

/-- A field of the command line that just one flag is about. -/
structure IsField (flag : Flag) (get : CommandLine → Override α) (value? : Text → Option α) :
    Prop where
  given {c c' : CommandLine} {v : Text} (h : Given c v flag c') : Reading value? v (get c')
  kept {c c' : CommandLine} {f : Flag} {v : Text} (h : Given c v f c') (hf : f ≠ flag) :
    get c' = get c
  raised {c c' : CommandLine} {f : Flag} (h : Raised c f c') : get c' = get c

theorem isField_host : IsField .host host some where
  given h := by cases h; assumption
  kept h hf := by cases h <;> first | rfl | contradiction
  raised h := by cases h <;> rfl

theorem isField_port : IsField .port port Numeral.integer? where
  given h := by cases h; assumption
  kept h hf := by cases h <;> first | rfl | contradiction
  raised h := by cases h <;> rfl

theorem isField_directory : IsField .directory directory fun t => some (Text.plainPath t) where
  given h := by cases h; assumption
  kept h hf := by cases h <;> first | rfl | contradiction
  raised h := by cases h <;> rfl

theorem isField_httpPort : IsField .httpPort httpPort Numeral.integer? where
  given h := by cases h; assumption
  kept h hf := by cases h <;> first | rfl | contradiction
  raised h := by cases h <;> rfl

theorem isField_metricsPort : IsField .metricsPort metricsPort Numeral.integer? where
  given h := by cases h; assumption
  kept h hf := by cases h <;> first | rfl | contradiction
  raised h := by cases h <;> rfl

theorem isField_level : IsField .level level LogLevel.ofText? where
  given h := by cases h; assumption
  kept h hf := by cases h <;> first | rfl | contradiction
  raised h := by cases h <;> rfl

theorem isField_format : IsField .format format LogFormat.ofText? where
  given h := by cases h; assumption
  kept h hf := by cases h <;> first | rfl | contradiction
  raised h := by cases h <;> rfl

/-- A field afterwards: as the value for it says, if there is one, or as it was before. -/
def Told (value? : Text → Option α) (before after : Override α) : Option Text → Prop
  | none => after = before
  | some v => Reading value? v after

theorem Told.trans {a b d : Override α} {u v : Option Text} (h : Told value? a b u)
    (h' : Told value? b d v) : Told value? a d (v.or u) := by
  cases v with
  | some v => exact h'
  | none =>
    cases h'
    exact h

/-- One option tells a field what its flag is about. -/
theorem IsField.use (hg : IsField flag get value?) {o : Flag × Option Text}
    (h : c.use o = .ok c') : Told value? (get c) (get c') (valueFor flag o) := by
  obtain ⟨f, v⟩ := o
  cases v with
  | none =>
    have hv : valueFor flag (f, none) = none := by simp [valueFor]
    rw [hv]
    exact hg.raised (raised_of_raise h)
  | some v =>
    have hgiven := given_of_give h
    by_cases hf : f = flag
    · subst hf
      rw [valueFor, if_pos rfl]
      exact hg.given hgiven
    · rw [valueFor, if_neg hf]
      exact hg.kept hgiven hf

/-- After options a field is as the last value for it says. -/
theorem IsField.run (hg : IsField flag get value?) (h : os.foldlM CommandLine.use c = .ok c') :
    Told value? (get c) (get c') (lastValue flag os) := by
  induction os generalizing c with
  | nil =>
    cases h
    rfl
  | cons o os ih =>
    obtain ⟨d, hd, hr⟩ := Except.bind_eq_ok_iff.1 h
    exact (hg.use hd).trans (ih hr)

end Fields

/-! ## Switches -/

/-- A switch of the command line that just one flag puts on. -/
structure IsSwitch (flag : Flag) (get : CommandLine → Bool) : Prop where
  given {c c' : CommandLine} {f : Flag} {v : Text} (h : Given c v f c') : get c' = get c
  raised {c c' : CommandLine} {f : Flag} (h : Raised c f c') : get c' = (get c || flag == f)

theorem isSwitch_http : IsSwitch .http http where
  given h := by cases h <;> rfl
  raised h := by cases h <;> simp

theorem isSwitch_noMetrics : IsSwitch .noMetrics noMetrics where
  given h := by cases h <;> rfl
  raised h := by cases h <;> simp

/-- After options a switch is on if it was before or if its flag stands among them. -/
theorem IsSwitch.run {flag : Flag} {get : CommandLine → Bool} (hg : IsSwitch flag get)
    (h : os.foldlM use c = .ok c') : get c' = (get c || os.elem (flag, none)) := by
  induction os generalizing c with
  | nil =>
    cases h
    simp
  | cons o os ih =>
    obtain ⟨d, hd, hr⟩ := Except.bind_eq_ok_iff.1 h
    have hstep : get d = (get c || (flag, none) == o) := by
      obtain ⟨f, _ | v⟩ := o
      · rw [hg.raised (raised_of_raise hd)]
        exact congrArg (get c || ·) (Bool.eq_iff_iff.2 (by simp))
      · rw [hg.given (given_of_give hd)]
        exact (Bool.or_eq_left_iff_imp.2 (by simp)).symm
    rw [ih hr, hstep, List.elem_cons]
    cases (flag, none) == o <;> simp

/-! ## What is in force -/

/-- What is in force of a field: the value given for it, or else what is set. A field whose value
is given as two dashes has none. -/
def InForce {α : Type} (value? : Text → Option α) (set : α) (inForce : Option α) :
    Option Text → Prop
  | none => inForce = some set
  | some v => if v = ['-', '-'] then inForce = none else ∃ a, value? v = some a ∧ inForce = some a

theorem Told.inForce {α : Type} {value? : Text → Option α} {o : Override α} {v : Option Text}
    (h : Told value? .absent o v) (set : α) : InForce value? set (o.over set) v := by
  cases v with
  | none =>
    cases h
    rfl
  | some v =>
    simp only [Told, Reading] at h
    simp only [InForce]
    split at h
    · next hv =>
      cases h
      rw [if_pos hv]
      rfl
    · next hv =>
      obtain ⟨a, ha, rfl⟩ := h
      rw [if_neg hv]
      exact ⟨a, ha, rfl⟩

/-- A configuration is as options say and otherwise as settings have it. -/
structure Follows (os : List (Flag × Option Text)) (s : Settings) (c : Configuration) : Prop where
  directory : InForce (fun t => some (Text.plainPath t)) s.storage.directory c.directory
    (lastValue .directory os)
  host : InForce some s.server.host c.host (lastValue .host os)
  port : InForce Numeral.integer? s.server.port c.port (lastValue .port os)
  httpPort : InForce Numeral.integer? s.server.httpPort c.httpPort (lastValue .httpPort os)
  metricsPort :
    InForce Numeral.integer? s.server.metricsPort c.metricsPort (lastValue .metricsPort os)
  level : InForce LogLevel.ofText? s.report.level c.level (lastValue .level os)
  format : InForce LogFormat.ofText? s.report.format c.format (lastValue .format os)
  metrics : c.metrics = (s.report.metrics && !os.elem (.noMetrics, none))
  routes : c.routes = os.elem (.http, none)
  suffix : c.suffix = s.storage.suffix
  safe : c.safe = s.storage.safe
  mode : c.mode = s.storage.mode
  maxLineBytes : c.maxLineBytes = s.server.maxLineBytes
  endpoint : c.endpoint = s.report.endpoint
  service : c.service = s.report.service
  console : c.console = s.report.console

theorem follows_of_foldlM (s : Settings) (h : os.foldlM use empty = .ok c) :
    Follows os s (c.apply s) where
  directory := (isField_directory.run h).inForce _
  host := (isField_host.run h).inForce _
  port := (isField_port.run h).inForce _
  httpPort := (isField_httpPort.run h).inForce _
  metricsPort := (isField_metricsPort.run h).inForce _
  level := (isField_level.run h).inForce _
  format := (isField_format.run h).inForce _
  metrics := by simp [apply, isSwitch_noMetrics.run h, empty]
  routes := by simp [apply, isSwitch_http.run h, empty]
  suffix := rfl
  safe := rfl
  mode := rfl
  maxLineBytes := rfl
  endpoint := rfl
  service := rfl
  console := rfl

/-! ## Bounds -/

/-- A value that stands for a number which a port may have. -/
def IsPortText (v : Text) : Prop := ∃ n, Numeral.integer? v = some n ∧ Settings.isPort n

theorem not_isPortText_dashes : ¬IsPortText ['-', '-'] := by
  rintro ⟨n, hn, -⟩
  cases hn

/-- A port in force is within its bounds just if the one given is, if one is given. -/
theorem InForce.isPort_iff {set : Int} {port : Option Int} {v : Option Text}
    (h : InForce Numeral.integer? set port v) (hset : Settings.isPort set) :
    (∃ n, port = some n ∧ Settings.isPort n) ↔ ∀ t, v = some t → IsPortText t := by
  cases v with
  | none =>
    cases h
    simpa using hset
  | some t =>
    simp only [InForce] at h
    simp only [Option.some.injEq, forall_eq']
    split at h
    · next ht =>
      subst ht h
      simp [not_isPortText_dashes]
    · obtain ⟨n, hn, rfl⟩ := h
      simp [IsPortText, hn]

/-- A choice in force is there unless two dashes are given for it. -/
theorem InForce.exists_iff {α : Type} {value? : Text → Option α} {set : α} {choice : Option α}
    {v : Option Text} (h : InForce value? set choice v) :
    (∃ a, choice = some a) ↔ v ≠ some ['-', '-'] := by
  cases v with
  | none =>
    cases h
    simp
  | some t =>
    simp only [InForce] at h
    split at h
    · next ht =>
      subst ht h
      simp
    · next ht =>
      obtain ⟨a, -, rfl⟩ := h
      simp [ht]

/-- The configuration has what the options say, and otherwise what is set. It is within its bounds
just if the last port given by each flag is, and no two dashes are given for a choice. -/
theorem apply_allowed_iff {env : List (Text × Text)} {ts : List Text} {s : Settings}
    (hs : Settings.ofEnvironment env = .ok s) (hc : ofArguments ts = .ok c) :
    Follows (optionsOf ts) s (c.apply s) ∧
      ((c.apply s).Allowed ↔
        (∀ flag ∈ [Flag.port, .httpPort, .metricsPort], ∀ v,
          lastValue flag (optionsOf ts) = some v → IsPortText v) ∧
        ∀ flag ∈ [Flag.level, .format], lastValue flag (optionsOf ts) ≠ some ['-', '-']) := by
  have hset := Settings.ofEnvironment_allowed hs
  have hf : Follows (optionsOf ts) s (c.apply s) := follows_of_foldlM s (foldlM_optionsOf hc)
  refine ⟨hf, fun ha => ⟨?_, ?_⟩, fun ⟨hports, hchoices⟩ => ?_⟩
  · simp only [List.forall_mem_cons, List.not_mem_nil, false_imp_iff, implies_true, and_true]
    exact ⟨(hf.port.isPort_iff hset.server.port).1 ha.port,
      (hf.httpPort.isPort_iff hset.server.httpPort).1 ha.httpPort,
      (hf.metricsPort.isPort_iff hset.server.metricsPort).1 ha.metricsPort⟩
  · obtain ⟨l, -, hl⟩ := ha.level
    obtain ⟨f, -, hformat⟩ := ha.format
    simp only [List.forall_mem_cons, List.not_mem_nil, false_imp_iff, implies_true, and_true]
    exact ⟨hf.level.exists_iff.1 ⟨l, hl⟩, hf.format.exists_iff.1 ⟨f, hformat⟩⟩
  · simp only [List.forall_mem_cons, List.not_mem_nil, false_imp_iff, implies_true,
      and_true] at hports hchoices
    obtain ⟨hport, hhttp, hmetrics⟩ := hports
    obtain ⟨l, hl⟩ := hf.level.exists_iff.2 hchoices.1
    obtain ⟨f, hformat⟩ := hf.format.exists_iff.2 hchoices.2
    exact {
      port := (hf.port.isPort_iff hset.server.port).2 hport
      httpPort := (hf.httpPort.isPort_iff hset.server.httpPort).2 hhttp
      metricsPort := (hf.metricsPort.isPort_iff hset.server.metricsPort).2 hmetrics
      maxLineBytes := hset.server.maxLineBytes
      suffix := hset.suffix
      mode := by cases (c.apply s).mode <;> simp
      level := ⟨l, by cases l <;> decide, hl⟩
      format := ⟨f, by cases f <;> decide, hformat⟩ }

/-- A port from the environment and, of two given by one flag, the last one. -/
theorem apply_allowed_of_ports :
    let env := [("TABDB_SERVER__PORT".toList, ['8', '1'])]
    let ts := ["--http-port".toList, ['0'], "--http-port=82".toList]
    ∃ s c, Settings.ofEnvironment env = .ok s ∧ ofArguments ts = .ok c ∧ (c.apply s).Allowed ∧
      (c.apply s).port = some 81 ∧ (c.apply s).httpPort = some 82 := by
  intro env ts
  have hs : Settings.ofEnvironment env = .ok _ := rfl
  have hc : ofArguments ts = .ok _ := rfl
  have ho : optionsOf ts = [(.httpPort, some ['0']), (.httpPort, some ['8', '2'])] := rfl
  have hport : IsPortText ['8', '2'] := ⟨82, rfl, rfl⟩
  refine ⟨_, _, hs, hc, (apply_allowed_iff hs hc).2.2 ⟨?_, ?_⟩, rfl, rfl⟩
  · simp [ho, lastValue, valueFor, hport]
  · simp [ho, lastValue, valueFor]

/-- The bounds of a port do not hold for one from the command line. -/
theorem port_beyond_bounds :
    ∃ s c, Settings.ofEnvironment [] = .ok s ∧
      ofArguments ["--port".toList, "70000".toList] = .ok c ∧
      (c.apply s).port = some 70000 ∧ ¬(c.apply s).Allowed := by
  refine ⟨_, _, rfl, rfl, rfl, ?_⟩
  rintro ⟨⟨n, hn, hport⟩, -⟩
  cases hn
  cases hport

end CommandLine

end Tabular
