import Gateway.Schemes.Serial
import Mathlib.Data.List.Count

/-! @src core/BasicDistributor.cpp, core/AbstractDistributor.cpp | name:Exporting from several threads |
    family:concurrency

    `exportData` takes the lock, gives the record to the exporters in the order in which they were
    registered, and releases the lock. What `ship` returns is not looked at, and whatever it raises is
    caught and logged, so that the next exporter gets the record all the same.

    `registerExporter` takes no lock: next to the loop it would move the vector that the loop goes
    through. The runs here are those of a gateway that registers an exporter only while nobody is in the
    loop, as one does that registers them all before its threads start.

    However the threads interleave, and whatever the exporters return or raise: each exporter gets the
    records in one order, the order of the locks, with nothing left out but what the last call has still
    to do; and this order keeps the order of each thread (`exports_in_order`). -/

namespace BeeeOn
open Schemes

namespace AbstractDistributor
variable {ι : Type}

/-- `registerExporter` -/
def registerExporter (m_exporters : List ι) (exporter : ι) : List ι := m_exporters ++ [exporter]

end AbstractDistributor

namespace BasicDistributor
open AbstractDistributor (registerExporter)
variable {θ ι D R : Type}

/-- The loop of `exportData`: every exporter is to ship the data. -/
def exportData (m_exporters : List ι) (sensorData : D) : List (ι × D) :=
  m_exporters.map fun exporter => (exporter, sensorData)

/-- What happens: an exporter is registered (while nobody is inside, see above), a thread calls
    `exportData`, it gets the lock, the next exporter returns or raises something, the lock is
    released. -/
inductive Label (θ ι D R : Type) where
  | registerExporter (exporter : ι)
  | exportData (t : θ) (sensorData : D)
  | lock (t : θ)
  | shipped (r : R)
  | unlock

/-- The step of calls under one lock that it is. -/
def Label.serial (m_exporters : List ι) : Label θ ι D R → Serial.Label θ (List ι) D R
  | registerExporter exporter => .configure (AbstractDistributor.registerExporter m_exporters exporter)
  | exportData t sensorData => .call t sensorData
  | lock t => .lock t
  | shipped r => .act r
  | unlock => .unlock

abbrev State (θ ι D R : Type) := Serial.State θ (List ι) D (ι × D) R

/-- No exporter has been registered yet. -/
def init : State θ ι D R := Serial.init []

def system [DecidableEq θ] : Lts (State θ ι D R) (Label θ ι D R) where
  step s l := (Serial.system exportData).step s (l.serial s.config)

section
variable [DecidableEq θ] {s s' : State θ ι D R} {l : Label θ ι D R} {ls : List (Label θ ι D R)}

/-- A run of the distributor is a run of calls under one lock. -/
theorem run_serial (h : system.run s ls = some s') :
    ∃ ls', (Serial.system exportData).run s ls' = some s' := by
  induction ls generalizing s with
  | nil => exact ⟨[], h⟩
  | cons l ls ih =>
    obtain ⟨t, ht, hrest⟩ := (system.run_cons_iff).mp h
    obtain ⟨ls', hrun⟩ := ih hrest
    exact ⟨l.serial s.config :: ls', ((Serial.system exportData).run_cons_iff).mpr ⟨t, ht, hrun⟩⟩

theorem run_threads (h : system.run init ls = some s) : Serial.Threads s := by
  obtain ⟨ls', hrun⟩ := run_serial h
  exact Serial.run_threads hrun

/-- The exporters that a call has found are still registered. -/
theorem run_registered (h : system.run init ls = some s) : ∀ x ∈ s.order, x.1 <+: s.config := by
  refine system.run_inv (P := fun s => ∀ x ∈ s.order, x.1 <+: s.config) ?_ (s := init) ?_ h
  · intro s l s' hs hl
    have hserial : (Serial.system exportData).step s (l.serial s.config) = some s' := hl
    obtain ⟨horder, hconfig⟩ := Serial.step_config hserial
    have hgrow : s.config <+: s'.config := by
      rcases hconfig with heq | heq
      · rw [heq]
      · cases l with
        | registerExporter exporter =>
          rw [← Serial.Label.configure.inj heq]
          exact List.prefix_append _ _
        | exportData | lock | shipped | unlock => cases heq
    intro x hx
    rcases horder x hx with hx | hx
    · exact (hs x hx).trans hgrow
    · rw [hx]
      exact hgrow
  · intro x hx
    cases hx

end

variable [DecidableEq ι]

/-- What the exporter has shipped or refused to ship, in the order of the calls of `ship`. -/
def shippedWith (i : ι) (s : State θ ι D R) : List (D × R) :=
  s.log.filterMap fun x => if x.1.1 = i then some (x.1.2, x.2) else none

/-- What the exporter is to ship of these calls of `exportData`: of each as often as it is registered. -/
def due (i : ι) (order : List (List ι × θ × D)) : List D :=
  order.flatMap fun x => List.replicate (x.1.count i) x.2.2

section
variable {i : ι}

/-- What the loop gives to an exporter. -/
theorem exportData_with (i : ι) (m_exporters : List ι) (sensorData : D) :
    (exportData m_exporters sensorData).filterMap (fun x => if x.1 = i then some x.2 else none) =
      List.replicate (m_exporters.count i) sensorData := by
  induction m_exporters with
  | nil => rfl
  | cons j m_exporters ih =>
    rw [exportData, List.map_cons, List.filterMap_cons]
    by_cases hj : j = i
    · subst hj
      rw [if_pos rfl, List.count_cons_self, List.replicate_succ]
      exact congrArg (sensorData :: ·) ih
    · rw [if_neg hj, List.count_cons_of_ne hj]
      exact ih

theorem whole_with (i : ι) (order : List (List ι × θ × D)) :
    (Serial.whole exportData order).filterMap (fun x => if x.1 = i then some x.2 else none) =
      due i order := by
  simp only [Serial.whole, List.filterMap_flatMap, exportData_with, due]

/-- An exporter that is registered once at most is to ship each record once at most. -/
theorem due_sublist {order : List (List ι × θ × D)} (h : ∀ x ∈ order, x.1.count i ≤ 1) :
    (due i order).Sublist (order.map fun x => x.2.2) := by
  induction order with
  | nil => exact List.Sublist.refl _
  | cons x order ih =>
    have hrest := ih fun y hy => h y (List.mem_cons_of_mem x hy)
    rcases Nat.le_one_iff_eq_zero_or_eq_one.mp (h x List.mem_cons_self) with hx | hx
    · rw [due, List.flatMap_cons, hx]
      exact hrest.cons _
    · rw [due, List.flatMap_cons, hx]
      exact hrest.cons_cons _

theorem due_eq {order : List (List ι × θ × D)} (h : ∀ x ∈ order, x.1.count i = 1) :
    due i order = order.map fun x => x.2.2 := by
  induction order with
  | nil => rfl
  | cons x order ih =>
    have hrest := ih fun y hy => h y (List.mem_cons_of_mem x hy)
    rw [due, List.flatMap_cons, h x List.mem_cons_self, List.map_cons, ← hrest]
    rfl

theorem shippedWith_data (i : ι) (s : State θ ι D R) : (shippedWith i s).map Prod.fst =
    (s.log.map Prod.fst).filterMap (fun x => if x.1 = i then some x.2 else none) := by
  rw [shippedWith, List.map_filterMap, List.filterMap_map]
  refine List.filterMap_congr fun x _ => ?_
  by_cases hx : x.1.1 = i <;> simp [hx]

end

section
variable [DecidableEq θ] {s : State θ ι D R} {ls : List (Label θ ι D R)}

/-- What an exporter gets is what it is to ship, but for what the last call has still to do. -/
theorem run_shipped (h : system.run init ls = some s) (i : ι) :
    (shippedWith i s).map Prod.fst <+: due i s.order ∧
      due i s.order.dropLast <+: (shippedWith i s).map Prod.fst ∧
      (s.inside = none → (shippedWith i s).map Prod.fst = due i s.order) := by
  obtain ⟨ls', hrun⟩ := run_serial h
  obtain ⟨hpart, hall, hlast⟩ := (Serial.run_progress hrun).done
  rw [shippedWith_data]
  refine ⟨?_, ?_, fun hfree => ?_⟩
  · rw [← whole_with]
    exact hpart.filterMap _
  · rw [← whole_with]
    exact hlast.filterMap _
  · rw [hall hfree, whole_with]

/-- For every interleaving in which exporters are registered while nobody is inside, and all that they
    return or raise: an exporter gets the records in the order in which the calls got the lock, as often
    as it is registered; only of the last call something may be missing, and nothing while the lock is
    free. And of the calls of a thread all but the one that waits got the lock, in their order. -/
theorem exports_in_order (h : system.run init ls = some s) (i : ι) :
    ((shippedWith i s).map Prod.fst <+: due i s.order ∧
      due i s.order.dropLast <+: (shippedWith i s).map Prod.fst ∧
      (s.inside = none → (shippedWith i s).map Prod.fst = due i s.order)) ∧
    ∀ t, Serial.ofThread t s.locked ++ (s.waiting t).toList = Serial.ofThread t s.calls :=
  ⟨run_shipped h i, run_threads h⟩

end

/-- Two threads and two exporters; what the first one of them returns is not looked at. -/
def sampleRun : List (Label Bool Bool ℕ Bool) :=
  [.registerExporter true, .registerExporter false, .exportData true 1, .exportData false 2, .lock false,
    .shipped true, .shipped false, .unlock, .lock true, .shipped false]

theorem sample_exports_in_order : ∃ s : State Bool Bool ℕ Bool, system.run init sampleRun = some s ∧
    (shippedWith false s).map Prod.fst <+: due false s.order :=
  have hrun : system.run init sampleRun = some (_ : State Bool Bool ℕ Bool) := rfl
  ⟨_, hrun, (exports_in_order hrun false).1.1⟩

end BasicDistributor
end BeeeOn
