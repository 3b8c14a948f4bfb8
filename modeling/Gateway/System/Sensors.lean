import Gateway.Core.Distributor
import Gateway.Core.VirtualSensor
import Gateway.Exporters.Stream

/-! @src core/VirtualSensor.cpp, core/BasicDistributor.cpp, exporters/NamedPipeExporter.cpp |
    name:From the sensors to the readers of the pipes | family:distributed system

    Virtual sensors that run in threads of their own, the distributor that they share, and the named
    pipes that it exports to, as one system. A step is a step of one sensor or of the distributor, but
    for the call and the return of `exportData`, which are steps of both.

    What a sensor has called `exportData` with is what it has measured, and no step of the system is ever
    in the way of another (`Inv.calls`, `sensors_go_on`). So the reader of a pipe on which every call of
    `ship` returns `true` gets lines of whole records, each record at most once, and those of one sensor
    in the order in which they were measured (`sensors_read`). -/

namespace BeeeOn
open Schemes Separated
open NamedPipeExporter (Outcomes Write Call stream delivered_read)
open CSVSensorDataFormatter (Platform newline row)

namespace Sensors
variable {θ ι V : Type}

/-- What the system answers in a call of `ship`. -/
structure Answers where
  o : Outcomes
  writes : List Write

structure State (θ ι V : Type) where
  distributor : BasicDistributor.State θ ι (Record V) Answers
  sensors : θ → VirtualSensor.State

inductive Label (θ ι V : Type) where
  /-- a step of the sensor other than to export or to return from it -/
  | sensor (t : θ) (l : VirtualSensor.Label)
  /-- the sensor measures and calls `exportData` -/
  | measure (t : θ) (now : ℤ)
  /-- a step of the distributor other than to be called or to return -/
  | distributor (l : BasicDistributor.Label θ ι (Record V) Answers)
  /-- `exportData` returns to the sensor -/
  | unlock (t : θ)

def init : State θ ι V := ⟨BasicDistributor.init, fun _ => VirtualSensor.init⟩

variable (values : θ → ℕ → Option V) (m_deviceId : θ → DeviceID)

/-- What the sensor has measured. -/
def measured (s : State θ ι V) (t : θ) : List (SensorData V) :=
  (List.range (s.sensors t).generated).filterMap fun k =>
    (values t k).map fun value => ⟨m_deviceId t, [⟨⟨0⟩, value, true⟩]⟩

/-- The call of `exportData` by the thread has not returned. -/
def Busy (d : BasicDistributor.State θ ι (Record V) Answers) (t : θ) : Prop :=
  d.waiting t ≠ none ∨ d.inside.map Prod.fst = some t

theorem measured_congr {values : θ → ℕ → Option V} {m_deviceId : θ → DeviceID} {s s' : State θ ι V}
    {t : θ} (h : (s'.sensors t).generated = (s.sensors t).generated) :
    measured values m_deviceId s' t = measured values m_deviceId s t := by
  rw [measured, h]
  rfl

variable [DecidableEq θ]

/-- A step of the sensor alone. -/
def sensor (s : State θ ι V) (t : θ) (l : VirtualSensor.Label) : Option (State θ ι V) :=
  ((VirtualSensor.system (values t)).step (s.sensors t) l).map fun u =>
    { s with sensors := Function.update s.sensors t u }

/-- A step of the distributor alone. -/
def distributor (s : State θ ι V) (l : BasicDistributor.Label θ ι (Record V) Answers) :
    Option (State θ ι V) :=
  (BasicDistributor.system.step s.distributor l).map fun d => { s with distributor := d }

def system : Lts (State θ ι V) (Label θ ι V) where
  step s
    | .sensor t l =>
      match l, values t (s.sensors t).generated with
      | .returned, _ | .measure, some _ => none
      | l, _ => sensor values s t l
    | .measure t now =>
      match values t (s.sensors t).generated with
      | some value => (sensor values s t .measure).bind fun s =>
        distributor s (.exportData t (VirtualSensor.record (m_deviceId t) value now))
      | none => none
    | .distributor l =>
      match l with
      | .exportData _ _ | .unlock => none
      | l => distributor s l
    | .unlock t =>
      if s.distributor.inside.map Prod.fst = some t then
        (distributor s .unlock).bind fun s => sensor values s t .returned
      else none

/-- The distributor's part is a run of the distributor; a sensor has exported what it has measured, and it
    is in `exportData` as long as the distributor has its call. -/
structure Inv (s : State θ ι V) : Prop where
  run : ∃ ls, BasicDistributor.system.run BasicDistributor.init ls = some s.distributor
  calls : ∀ t, (Serial.ofThread t s.distributor.calls).map Record.toSensorData =
    measured values m_deviceId s t
  busy : ∀ t, (s.sensors t).phase = .exporting ↔ Busy s.distributor t
  alone : ∀ t, s.distributor.inside.map Prod.fst = some t → s.distributor.waiting t = none

section
variable {values m_deviceId} {s s' : State θ ι V} {l : Label θ ι V} {ls : List (Label θ ι V)} {t : θ}

/-- What a step does. -/
inductive Steps (values : θ → ℕ → Option V) (m_deviceId : θ → DeviceID) (s : State θ ι V) :
    Label θ ι V → State θ ι V → Prop
  | sensor (t : θ) (l : VirtualSensor.Label) (u : VirtualSensor.State) (hl : l ≠ .returned)
      (hvalue : l = .measure → values t (s.sensors t).generated = none)
      (hstep : (VirtualSensor.system (values t)).step (s.sensors t) l = some u) :
      Steps values m_deviceId s (.sensor t l) { s with sensors := Function.update s.sensors t u }
  | measure (t : θ) (now : ℤ) (value : V) (u : VirtualSensor.State)
      (d : BasicDistributor.State θ ι (Record V) Answers)
      (hvalue : values t (s.sensors t).generated = some value)
      (hstep : (VirtualSensor.system (values t)).step (s.sensors t) .measure = some u)
      (hcall : BasicDistributor.system.step s.distributor
        (.exportData t (VirtualSensor.record (m_deviceId t) value now)) = some d) :
      Steps values m_deviceId s (.measure t now) ⟨d, Function.update s.sensors t u⟩
  | distributor (l : BasicDistributor.Label θ ι (Record V) Answers)
      (d : BasicDistributor.State θ ι (Record V) Answers) (hl : l ≠ .unlock)
      (hcall : ∀ t data, l ≠ .exportData t data)
      (hstep : BasicDistributor.system.step s.distributor l = some d) :
      Steps values m_deviceId s (.distributor l) { s with distributor := d }
  | unlock (t : θ) (u : VirtualSensor.State) (d : BasicDistributor.State θ ι (Record V) Answers)
      (hin : s.distributor.inside.map Prod.fst = some t)
      (hreturn : BasicDistributor.system.step s.distributor .unlock = some d)
      (hstep : (VirtualSensor.system (values t)).step (s.sensors t) .returned = some u) :
      Steps values m_deviceId s (.unlock t) ⟨d, Function.update s.sensors t u⟩

theorem steps_of_step (h : (system values m_deviceId).step s l = some s') :
    Steps values m_deviceId s l s' := by
  cases l with
  | sensor t l =>
    have hsensor : ∀ (hl : l ≠ .returned)
        (hvalue : l = .measure → values t (s.sensors t).generated = none),
        sensor values s t l = some s' → Steps values m_deviceId s (.sensor t l) s' := by
      intro hl hvalue h
      obtain ⟨u, hstep, rfl⟩ := Option.map_eq_some_iff.mp h
      exact .sensor t l u hl hvalue hstep
    simp only [system] at h
    split at h
    · cases h
    · cases h
    · next hreturned hmeasure =>
      refine hsensor (fun hl => hreturned hl) (fun hl => ?_) h
      rw [Option.eq_none_iff_forall_ne_some]
      exact fun v hv => hmeasure v hl hv
  | measure t now =>
    simp only [system] at h
    split at h
    · next value hvalue =>
      obtain ⟨s₁, hsensor, hdist⟩ := Option.bind_eq_some_iff.mp h
      obtain ⟨u, hstep, rfl⟩ := Option.map_eq_some_iff.mp hsensor
      obtain ⟨d, hcall, rfl⟩ := Option.map_eq_some_iff.mp hdist
      exact .measure t now value u d hvalue hstep hcall
    · cases h
  | distributor l =>
    simp only [system] at h
    split at h
    · cases h
    · cases h
    · next hcall hunlock =>
      obtain ⟨d, hstep, rfl⟩ := Option.map_eq_some_iff.mp h
      exact .distributor l d (fun hl => hunlock hl) (fun t data hl => hcall t data hl) hstep
  | unlock t =>
    simp only [system] at h
    split_ifs at h with hin
    obtain ⟨s₁, hdist, hsensor⟩ := Option.bind_eq_some_iff.mp h
    obtain ⟨d, hreturn, rfl⟩ := Option.map_eq_some_iff.mp hdist
    obtain ⟨u, hstep, rfl⟩ := Option.map_eq_some_iff.mp hsensor
    exact .unlock t u d hin hreturn hstep

/-! ### The parts in a step -/

/-- What a step of the distributor alone does not change. -/
theorem distributor_step {d d' : BasicDistributor.State θ ι (Record V) Answers}
    {l : BasicDistributor.Label θ ι (Record V) Answers} (hl : l ≠ .unlock)
    (hcall : ∀ t data, l ≠ .exportData t data) (h : BasicDistributor.system.step d l = some d')
    (halone : ∀ t, d.inside.map Prod.fst = some t → d.waiting t = none) :
    d'.calls = d.calls ∧ (∀ t, Busy d' t ↔ Busy d t) ∧
      ∀ t, d'.inside.map Prod.fst = some t → d'.waiting t = none := by
  have hserial : (Serial.system BasicDistributor.exportData).step d (l.serial d.config) = some d' := h
  cases l with
  | registerExporter exporter =>
    cases Serial.steps_of_step hserial with
    | configure e hfree => exact ⟨rfl, fun _ => Iff.rfl, halone⟩
  | exportData t data => exact absurd rfl (hcall t data)
  | lock t =>
    cases Serial.steps_of_step hserial with
    | lock t c hfree hwait =>
      refine ⟨rfl, fun u => ?_, fun u hu => ?_⟩
      · by_cases hu : u = t
        · subst hu
          simp [Busy, hwait]
        · simp [Busy, hfree, Function.update_of_ne hu, Ne.symm hu]
      · obtain rfl := Option.some.inj hu
        exact Function.update_self ..
  | shipped r =>
    cases Serial.steps_of_step hserial with
    | act r t c a rest hin =>
      rw [hin] at halone
      exact ⟨rfl, fun u => by simp [Busy, hin], halone⟩
  | unlock => exact absurd rfl hl

/-- A step of the sensor alone does not change what it has measured, and not whether it exports. -/
theorem sensor_step {values : ℕ → Option V} {u u' : VirtualSensor.State} {l : VirtualSensor.Label}
    (hl : l ≠ .returned) (hvalue : l = .measure → values u.generated = none)
    (h : (VirtualSensor.system values).step u l = some u') :
    u'.generated = u.generated ∧ (u'.phase = .exporting ↔ u.phase = .exporting) := by
  cases l with
  | measure =>
    simp only [VirtualSensor.system, hvalue rfl] at h
    split_ifs at h with hphase
    cases h
    simp [hphase]
  | returned => exact absurd rfl hl
  | check | wait | timeout | wake =>
    simp only [VirtualSensor.system] at h
    split_ifs at h with hphase <;> cases h
    all_goals exact ⟨rfl, by simp [hphase]⟩
  | requestStop =>
    cases h
    exact ⟨rfl, Iff.rfl⟩
  | signal =>
    simp only [VirtualSensor.system] at h
    split_ifs at h with hstop hphase
    · cases h
      exact ⟨rfl, by simp [hphase]⟩
    · cases h
      exact ⟨rfl, Iff.rfl⟩

theorem measure_step {values : ℕ → Option V} {u u' : VirtualSensor.State} {value : V}
    (hvalue : values u.generated = some value)
    (h : (VirtualSensor.system values).step u .measure = some u') :
    u'.generated = u.generated + 1 ∧ u'.phase = .exporting := by
  simp only [VirtualSensor.system, hvalue] at h
  split_ifs at h with hphase
  cases h
  exact ⟨rfl, rfl⟩

theorem returned_step {values : ℕ → Option V} {u u' : VirtualSensor.State}
    (h : (VirtualSensor.system values).step u .returned = some u') :
    u'.generated = u.generated ∧ u'.phase = .exported := by
  simp only [VirtualSensor.system] at h
  split_ifs at h with hphase
  cases h
  exact ⟨rfl, rfl⟩

theorem update_generated {sensors : θ → VirtualSensor.State} {u : VirtualSensor.State}
    (h : u.generated = (sensors t).generated) (v : θ) :
    (Function.update sensors t u v).generated = (sensors v).generated := by
  by_cases hv : v = t
  · subst hv
    rw [Function.update_self, h]
  · rw [Function.update_of_ne hv]

/-- The call of `exportData` takes the distributor, with what the sensor has measured. -/
theorem inv_measure (hs : Inv values m_deviceId s) {now : ℤ} {value : V} {u : VirtualSensor.State}
    {d : BasicDistributor.State θ ι (Record V) Answers}
    (hvalue : values t (s.sensors t).generated = some value)
    (hstep : (VirtualSensor.system (values t)).step (s.sensors t) .measure = some u)
    (hcall : BasicDistributor.system.step s.distributor
      (.exportData t (VirtualSensor.record (m_deviceId t) value now)) = some d) :
    Inv values m_deviceId ⟨d, Function.update s.sensors t u⟩ := by
  obtain ⟨dls, hrun⟩ := hs.run
  obtain ⟨hgen, hphase⟩ := measure_step hvalue hstep
  have hdist : BasicDistributor.system.run BasicDistributor.init (dls ++ [_]) = some d :=
    BasicDistributor.system.run_concat_iff.mpr ⟨_, hrun, hcall⟩
  have hserial : (Serial.system BasicDistributor.exportData).step s.distributor (.call t _) = some d :=
    hcall
  cases Serial.steps_of_step hserial with
  | call _ c hwait hin =>
    refine ⟨⟨_, hdist⟩, fun v => ?_, fun v => ?_, fun v hv => ?_⟩
    · dsimp only
      rw [Serial.ofThread_concat, List.map_append, hs.calls v]
      by_cases hv : v = t
      · subst hv
        have hnow : (Function.update s.sensors v u v).generated = (s.sensors v).generated + 1 := by
          rw [Function.update_self, hgen]
        rw [if_pos rfl, measured, measured, hnow, List.range_succ, List.filterMap_append]
        simp only [List.filterMap_cons, hvalue, Option.map_some, List.filterMap_nil]
        rfl
      · rw [if_neg (Ne.symm hv), List.map_nil, List.append_nil]
        exact (measured_congr (by simp [Function.update_of_ne hv])).symm
    · by_cases hv : v = t
      · subst hv
        simp [Busy, hphase]
      · simp only [Function.update_of_ne hv, hs.busy v]
        simp [Busy, Function.update_of_ne hv]
    · have hvt : v ≠ t := fun heq => hin (heq ▸ hv)
      dsimp only
      rw [Function.update_of_ne hvt]
      exact hs.alone v hv

/-- The end of the call lets it go. -/
theorem inv_unlock (hs : Inv values m_deviceId s) {u : VirtualSensor.State}
    {d : BasicDistributor.State θ ι (Record V) Answers}
    (hin : s.distributor.inside.map Prod.fst = some t)
    (hreturn : BasicDistributor.system.step s.distributor .unlock = some d)
    (hstep : (VirtualSensor.system (values t)).step (s.sensors t) .returned = some u) :
    Inv values m_deviceId ⟨d, Function.update s.sensors t u⟩ := by
  obtain ⟨dls, hrun⟩ := hs.run
  obtain ⟨hgen, hphase⟩ := returned_step hstep
  have hdist : BasicDistributor.system.run BasicDistributor.init (dls ++ [_]) = some d :=
    BasicDistributor.system.run_concat_iff.mpr ⟨_, hrun, hreturn⟩
  have hserial : (Serial.system BasicDistributor.exportData).step s.distributor .unlock = some d :=
    hreturn
  cases Serial.steps_of_step hserial with
  | unlock t' c hin' =>
    obtain rfl : t' = t := by
      rw [hin'] at hin
      exact Option.some.inj hin
    refine ⟨⟨_, hdist⟩, fun v => (hs.calls v).trans (measured_congr (update_generated hgen v)).symm,
      fun v => ?_, fun v hv => by cases hv⟩
    by_cases hv : v = t'
    · subst hv
      simp [Busy, hphase, hs.alone v hin]
    · simp only [Function.update_of_ne hv, hs.busy v]
      simp [Busy, hin', Ne.symm hv]

theorem step_inv (hs : Inv values m_deviceId s) (h : (system values m_deviceId).step s l = some s') :
    Inv values m_deviceId s' := by
  cases steps_of_step h with
  | sensor t l u hl hvalue hstep =>
    obtain ⟨hgen, hphase⟩ := sensor_step hl hvalue hstep
    refine ⟨hs.run, fun v => (hs.calls v).trans (measured_congr (update_generated hgen v)).symm,
      fun v => ?_, hs.alone⟩
    rw [← hs.busy v]
    by_cases hv : v = t
    · subst hv
      simpa using hphase
    · simp [Function.update_of_ne hv]
  | measure t now value u d hvalue hstep hcall => exact inv_measure hs hvalue hstep hcall
  | distributor l d hl hcall hstep =>
    obtain ⟨dls, hrun⟩ := hs.run
    obtain ⟨hcalls, hbusy, halone⟩ := distributor_step hl hcall hstep hs.alone
    refine ⟨⟨dls ++ [l], BasicDistributor.system.run_concat_iff.mpr ⟨_, hrun, hstep⟩⟩, fun v => ?_,
      fun v => (hs.busy v).trans (hbusy v).symm, halone⟩
    rw [hcalls]
    exact hs.calls v
  | unlock t u d hin hreturn hstep => exact inv_unlock hs hin hreturn hstep

theorem run_inv (h : (system values m_deviceId).run init ls = some s) : Inv values m_deviceId s :=
  (system values m_deviceId).run_inv (fun _ _ _ hs hl => step_inv hs hl)
    ⟨⟨[], rfl⟩, fun _ => rfl, fun _ => by simp [init, Busy, BasicDistributor.init, Serial.init,
      VirtualSensor.init], fun _ h => by cases h⟩ h

/-! ### Nobody is in the way of another -/

/-- The steps that the sensors and the distributor do by themselves. -/
def Label.own : Label θ ι V → Prop
  | sensor _ l => l.left ≠ none
  | distributor (.registerExporter _) => False
  | _ => True

/-- A call of `exportData` goes on: the one that has the lock ships or returns, and if nobody has it, it can
    be taken. -/
theorem distributor_goes_on (hs : Inv values m_deviceId s) (hbusy : Busy s.distributor t) :
    ∃ l, l.own ∧ (system values m_deviceId).step s l ≠ none ∧
      ((∃ k, l = .distributor k) ∨ ∃ u, l = .unlock u) := by
  cases hin : s.distributor.inside with
  | none =>
    rcases hbusy with hwait | hinside
    · obtain ⟨c, hc⟩ := Option.ne_none_iff_exists'.mp hwait
      exact ⟨.distributor (.lock t), trivial, by simp [system, distributor, BasicDistributor.system,
        BasicDistributor.Label.serial, Serial.system, hin, hc], Or.inl ⟨_, rfl⟩⟩
    · rw [hin] at hinside
      cases hinside
  | some held =>
    obtain ⟨u, c, rest⟩ := held
    cases rest with
    | nil =>
      have hphase : (s.sensors u).phase = .exporting := (hs.busy u).mpr (Or.inr (by rw [hin]; rfl))
      exact ⟨.unlock u, trivial, by simp [system, sensor, distributor, BasicDistributor.system,
        BasicDistributor.Label.serial, Serial.system, VirtualSensor.system, hin, hphase],
        Or.inr ⟨u, rfl⟩⟩
    | cons a rest =>
      let answers : Answers := ⟨⟨fun _ => .error .enxio, fun _ => true, .other, none, []⟩, []⟩
      exact ⟨.distributor (.shipped answers), trivial, by simp [system, distributor,
        BasicDistributor.system, BasicDistributor.Label.serial, Serial.system, hin],
        Or.inl ⟨_, rfl⟩⟩

/-- A sensor that is not in `exportData` does its next step. -/
theorem sensor_goes_on (hs : Inv values m_deviceId s) (hphase : (s.sensors t).phase ≠ .ended)
    (hexp : (s.sensors t).phase ≠ .exporting) :
    ∃ l, l.own ∧ (system values m_deviceId).step s l ≠ none ∧
      (l = .measure t 0 ∨ ∃ k, l = .sensor t k) := by
  obtain ⟨k, u, hown, hstep⟩ := VirtualSensor.step_exists (values t) hphase
  cases k with
  | measure =>
    cases hvalue : values t (s.sensors t).generated with
    | none =>
      exact ⟨.sensor t .measure, hown, by simp [system, sensor, hvalue, hstep], Or.inr ⟨_, rfl⟩⟩
    | some value =>
      obtain ⟨hwait, hin⟩ := not_or.mp (mt (hs.busy t).mpr hexp)
      exact ⟨.measure t 0, trivial, by simp [system, sensor, distributor, BasicDistributor.system,
        BasicDistributor.Label.serial, Serial.system, hvalue, hstep, not_not.mp hwait, hin],
        Or.inl rfl⟩
  | returned =>
    simp only [VirtualSensor.system, if_neg hexp] at hstep
    cases hstep
  | check | wait | timeout | wake | requestStop | signal =>
    exact ⟨.sensor t _, hown, by simp [system, sensor, hstep], Or.inr ⟨_, rfl⟩⟩

/-- In every state that is reached: as long as a sensor has not ended, it can do its next step, or it is in
    `exportData`, and then a step of the distributor is possible or the return of a call. -/
theorem sensors_go_on (h : (system values m_deviceId).run init ls = some s) (t : θ)
    (hphase : (s.sensors t).phase ≠ .ended) :
    ∃ l, l.own ∧ (system values m_deviceId).step s l ≠ none ∧
      ((s.sensors t).phase ≠ .exporting → l = .measure t 0 ∨ ∃ k, l = .sensor t k) ∧
      ((s.sensors t).phase = .exporting → (∃ k, l = .distributor k) ∨ ∃ u, l = .unlock u) := by
  have hs := run_inv h
  by_cases hexp : (s.sensors t).phase = .exporting
  · obtain ⟨l, hown, hstep, hl⟩ := distributor_goes_on hs ((hs.busy t).mp hexp)
    exact ⟨l, hown, hstep, fun hne => absurd hexp hne, fun _ => hl⟩
  · obtain ⟨l, hown, hstep, hl⟩ := sensor_goes_on hs hphase hexp
    exact ⟨l, hown, hstep, fun _ => hl, fun heq => absurd heq hexp⟩

/-! ### The readers of the pipes -/

variable [DecidableEq ι]

/-- The calls of `ship` of an exporter. -/
def shipments (i : ι) (s : State θ ι V) : List (Call V) :=
  (BasicDistributor.shippedWith i s.distributor).map fun x => ⟨x.1, x.2.o, x.2.writes⟩

/-- For every interleaving of any number of sensors: if an exporter is registered once at most, no row has
    a newline, and every call of `ship` returns `true`, then the reader of its pipe gets whole records, at
    most once each, those of a sensor in the order in which the sensor has measured them; and all of them
    that got the lock if nobody is inside, the exporter was registered at each of these calls and the pipe
    has always had a reader. -/
theorem sensors_read (P : Platform V) (separator : String) (i : ι)
    (h : (system values m_deviceId).run init ls = some s) (hreg : s.distributor.config.count i ≤ 1)
    (hplain : ∀ c ∈ shipments i s, c.Plain P separator)
    (htrue : ∀ c ∈ shipments i s, c.ended P separator = .returned true) :
    ∃ kept : List (θ × Record V),
      lines newline (stream P separator (shipments i s)) =
        (kept.flatMap (fun x => x.2.values.map (row P separator x.2)), []) ∧
      (∀ t, ((Serial.ofThread t kept).map Record.toSensorData).Sublist
        (measured values m_deviceId s t)) ∧
      (s.distributor.inside = none → (∀ x ∈ s.distributor.order, i ∈ x.1) →
        (∀ c ∈ shipments i s, c.written P separator ≠ []) → kept = s.distributor.locked) := by
  obtain ⟨⟨dls, hrun⟩, hcalls, -, -⟩ := run_inv h
  obtain ⟨hpart, -, hall⟩ := BasicDistributor.run_shipped hrun i
  have honce : ∀ x ∈ s.distributor.order, x.1.count i ≤ 1 := fun x hx =>
    ((BasicDistributor.run_registered hrun x hx).sublist.count_le i).trans hreg
  have hdata : (shipments i s).map Call.data =
      (BasicDistributor.shippedWith i s.distributor).map Prod.fst := by
    rw [shipments, List.map_map]
    rfl
  have hlocked : ((shipments i s).map Call.data).Sublist (s.distributor.locked.map Prod.snd) := by
    rw [hdata, Serial.State.locked, List.map_map]
    exact hpart.sublist.trans (BasicDistributor.due_sublist honce)
  -- the calls that have written something, each with its thread
  have hfound := (List.filter_sublist (p := fun c => c.written P separator ≠ []) (l := shipments i s)).map
    Call.data
  obtain ⟨kept, hkept, hmap⟩ := List.sublist_map_iff.mp (hfound.trans hlocked)
  refine ⟨kept, ?_, fun t => ?_, fun hfree hin hreader => hkept.eq_of_length ?_⟩
  · rw [delivered_read hplain htrue]
    have hrows := congrArg (List.flatMap fun d => d.values.map (row P separator d)) hmap
    rw [List.flatMap_map, List.flatMap_map] at hrows
    exact congrArg (·, []) hrows
  · have hthreads := BasicDistributor.run_threads hrun t
    rw [← hcalls t, ← hthreads, List.map_append]
    exact ((hkept.filterMap _).map _).trans (List.sublist_append_left _ _)
  · have hone : ∀ x ∈ s.distributor.order, x.1.count i = 1 := fun x hx =>
      le_antisymm (honce x hx) (List.count_pos_iff.mpr (hin x hx))
    have hcount := congrArg List.length hmap
    rw [List.filter_eq_self.mpr (by simpa using hreader), hdata, hall hfree,
      BasicDistributor.due_eq hone, List.length_map, List.length_map] at hcount
    rw [← hcount, Serial.State.locked, List.length_map]

end

/-! ### Two sensors -/

def sampleValues : Bool → ℕ → Option Reading := fun t k => if k = 0 then some (if t then .warm else .cold)
  else none

def sampleDevice : Bool → DeviceID := fun t =>
  Sample.ofWord (if t then 0xa800000000000001 else 0xa800000000000002)

/-- Both measure; the second one is first to get the lock, and its record is written in two parts. -/
def sampleRun : List (Label Bool Unit Reading) :=
  let o : Outcomes := ⟨fun _ => .ok 3, fun _ => true, .other, some true, []⟩
  [.distributor (.registerExporter ()), .sensor false .check, .measure false 1000000, .sensor true .check,
    .measure true 2000000, .distributor (.lock true), .distributor (.shipped ⟨o, [.took 30, .took 9]⟩),
    .unlock true, .distributor (.lock false), .distributor (.shipped ⟨o, [.took 39]⟩)]

/-- The state after it. -/
def sampleState : State Bool Unit Reading :=
  ((system sampleValues sampleDevice).run init sampleRun).getD init

theorem sample_run : (system sampleValues sampleDevice).run init sampleRun = some sampleState := rfl

theorem sample_sensors_read : ∃ kept : List (Bool × Record Reading),
    lines newline (stream CSVSensorDataFormatter.sample ";" (shipments () sampleState)) =
      (kept.flatMap (fun x => x.2.values.map (row CSVSensorDataFormatter.sample ";" x.2)), []) := by
  obtain ⟨kept, hread, -⟩ := sensors_read CSVSensorDataFormatter.sample ";" () sample_run (by decide)
    (by decide +kernel) (by decide +kernel)
  exact ⟨kept, hread⟩

/-- The other sensor is in `exportData`, so it is the distributor's turn or a call returns. -/
theorem sample_sensors_go_on : ∃ l : Label Bool Unit Reading,
    (system sampleValues sampleDevice).step sampleState l ≠ none ∧
      ((∃ k, l = .distributor k) ∨ ∃ u, l = .unlock u) := by
  obtain ⟨l, -, hstep, -, hl⟩ := sensors_go_on sample_run false (by decide)
  exact ⟨l, hstep, hl rfl⟩

end Sensors
end BeeeOn
