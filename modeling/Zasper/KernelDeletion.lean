import Zasper.KernelSupervisor

/-!
# Deleting a kernel

What the deletion of a kernel leaves, in every state that the server can come to. The
handler looks up the connection of the kernel first and follows it also where there is
none, it never looks whether the kernel is known, and only the connection that was
registered last is cancelled: `deleted_iff` says when the deletion is complete.
-/
namespace Zasper.KernelDeletion
open Zasper.Maps Zasper.Kernels Zasper.KernelManagers Zasper.KernelSupervisor Zasper.Runs
set_option linter.unusedSimpArgs false

/-- A deletion is complete, or refused for a kernel that is not known. -/
structure Deleted (outside : Outside) (s : Supervisor) (kernelID : String) : Prop where
  /-- No missing entry is followed. -/
  followed : (kernelDeleteAPIHandler outside s.registry kernelID).2 ≠ .panicked
  known : ∀ km, s.registry.kernels.get? kernelID = some km →
    let after := (kernelDeleteAPIHandler outside s.registry kernelID).1
    after.kernels.get? kernelID = none ∧ after.connections.get? kernelID = none ∧
      (outside.kills km.pid = true → km.pid ∉ after.processes) ∧
      ∀ context, (kernelID,context) ∈ s.opened → context ∉ s.closed → context ∉ after.polling
  unknown : s.registry.kernels.get? kernelID = none →
    kernelDeleteAPIHandler outside s.registry kernelID = (s.registry,.notFound)
  others : ∀ other ≠ kernelID,
    let after := (kernelDeleteAPIHandler outside s.registry kernelID).1
    after.kernels.get? other = s.registry.kernels.get? other ∧
      after.connections.get? other = s.registry.connections.get? other

/-- The kernel is known and has a registered connection; every other connection that was
    opened to it is closed or cancelled. -/
def Sole (s : Supervisor) (kernelID : String) : Prop :=
  s.registry.kernels.get? kernelID ≠ none ∧
    ∃ kwsConn, s.registry.connections.get? kernelID = some kwsConn ∧
      ∀ context, (kernelID,context) ∈ s.opened → context ∉ s.closed → context ∈ s.registry.polling →
        context = kwsConn.context

/-- Processes and contexts are distinct. -/
structure Distinct (s : Supervisor) : Prop where
  pids : ∀ e ∈ s.registry.kernels.entries, e.2.pid ≠ 0
  processes : s.registry.processes.Nodup
  polling : s.registry.polling.Nodup
  contexts : ∀ context ∈ s.registry.polling, context < s.opened.length

section
variable {mac : List UInt8 → List UInt8 → List UInt8} {s s' : Supervisor} {e : Event}

theorem killKernelById_nodup {registry : Registry} (nodup : registry.processes.Nodup) (outside : Outside)
    (kernelId : String) : (killKernelById outside kernelId registry).processes.Nodup := killKernel_nodup nodup

theorem change_distinct (change : Change mac s e s') (distinct : Distinct s) : Distinct s' := by
  obtain ⟨pids,processes,polling,contexts⟩ := distinct
  cases change with
  | gone exited => exact ⟨pids,processes,polling,contexts⟩
  | existing live known => exact ⟨pids,processes,polling,contexts⟩
  | unstarted live unknown none => exact ⟨pids,processes,polling,contexts⟩
  | @launched req outside pid live unknown process =>
    obtain ⟨nonzero,new⟩ := newProcess_fresh process
    refine ⟨fun e member => ?_,List.nodup_cons.mpr ⟨new,processes⟩,polling,contexts⟩
    rcases Dict.mem_insert.mp member with rfl | ⟨old,-⟩
    · exact nonzero
    · exact pids e old
  | absent live unknown => exact ⟨pids,processes,polling,contexts⟩
  | exits live known fails => exact ⟨pids,processes,polling,contexts⟩
  | ended live known stopped =>
    simp only [stopKernelManager,shutdownKernel] at stopped
    split_ifs at stopped
    obtain rfl := Option.some.inj stopped
    exact ⟨pids,processes.erase _,polling,contexts⟩
  | stopped live =>
    refine ⟨fun e member => ?_,killKernelById_nodup processes _ _,by simpa using polling,by simpa using contexts⟩
    rw [killKernelById_kernels] at member
    exact pids e (Dict.mem_erase.mp member).1
  | panicked live unknown => exact ⟨pids,processes,polling,contexts⟩
  | deleted live known =>
    rw [kernelDelete_known known]
    refine ⟨?_,killKernelById_nodup (by exact processes) _ _,?_,?_⟩
    · intro e member
      simp only [killKernelById_kernels] at member
      exact pids e (Dict.mem_erase.mp member).1
    · simpa using polling.erase _
    · intro context member
      simp only [killKernelById_polling] at member
      exact contexts context (List.mem_of_mem_erase member)
  | refused live => exact ⟨pids,processes,polling,contexts⟩
  | connected live known =>
    refine ⟨pids,processes,List.nodup_cons.mpr ⟨?_,polling⟩,?_⟩
    · intro old
      exact absurd (contexts _ old) (by omega)
    · simp only [List.length_append,List.length_singleton]
      intro context member
      rcases List.mem_cons.mp member with rfl | old
      · omega
      · have := contexts context old
        omega
  | closed live => exact ⟨pids,processes,polling,contexts⟩

theorem run_distinct (mac : List UInt8 → List UInt8 → List UInt8) (events : List Event) :
    Distinct (run (step mac) setUp events).1 :=
  run_invariant (fun s e distinct => change_distinct (step_change s e) distinct)
    ⟨by simp [setUp],by simp [setUp],by simp [setUp],by simp [setUp]⟩ events

/-- What a deletion does not reach. -/
theorem delete_others (outside : Outside) (registry : Registry) {kernelID other : String} (different : other ≠ kernelID) :
    (kernelDeleteAPIHandler outside registry kernelID).1.kernels.get? other = registry.kernels.get? other ∧
      (kernelDeleteAPIHandler outside registry kernelID).1.connections.get? other = registry.connections.get? other := by
  cases known : registry.connections.get? kernelID with
  | none => simp [kernelDelete_unknown known]
  | some kwsConn => simp [kernelDelete_known known,Dict.get?_erase_other _ different]

theorem deleted_iff_sole (distinct : Distinct s) (outside : Outside) (kernelID : String) :
    Deleted outside s kernelID ↔ Sole s kernelID := by
  cases connection : s.registry.connections.get? kernelID with
  | none =>
    constructor
    · rintro ⟨followed,-,-,-⟩
      rw [kernelDelete_unknown connection] at followed
      exact absurd rfl followed
    · rintro ⟨_,kwsConn,known,_⟩
      rw [connection] at known
      cases known
  | some kwsConn =>
    cases kernel : s.registry.kernels.get? kernelID with
    | none =>
      constructor
      · rintro ⟨-,-,unknown,-⟩
        have answer := congrArg Prod.snd (unknown kernel)
        rw [kernelDelete_known connection] at answer
        cases answer
      · rintro ⟨known,-⟩
        exact absurd kernel known
    | some km =>
      have nonzero : km.pid ≠ 0 := distinct.pids _ (Dict.get?_eq_some.mp kernel)
      constructor
      · rintro ⟨-,known,-,-⟩
        refine ⟨by simp [kernel],kwsConn,connection,?_⟩
        intro context opened unclosed polls
        have cancelled := (known km kernel).2.2.2 context opened unclosed
        rw [kernelDelete_known connection,killKernelById_polling] at cancelled
        by_contra other
        exact cancelled ((List.Nodup.mem_erase_iff distinct.polling).mpr ⟨other,polls⟩)
      · rintro ⟨-,only,registered,sole⟩
        obtain rfl : kwsConn = only := Option.some.inj (connection.symm.trans registered)
        refine ⟨by simp [kernelDelete_known connection],?_,?_,fun other different => delete_others _ _ different⟩
        · intro found same
          obtain rfl : km = found := Option.some.inj (kernel.symm.trans same)
          rw [kernelDelete_known connection]
          refine ⟨by simp,by simp,?_,?_⟩
          · intro kills
            have killed := killKernelById_processes outside kernelID
              { s.registry with
                polling := s.registry.polling.erase kwsConn.context
                connections := s.registry.connections.erase kernelID } kernel
            rw [if_pos ⟨nonzero,kills⟩] at killed
            rw [killed]
            exact fun alive => ((List.Nodup.mem_erase_iff distinct.processes).mp alive).1 rfl
          · intro context opened unclosed polls
            rw [killKernelById_polling] at polls
            obtain ⟨other,before⟩ := (List.Nodup.mem_erase_iff distinct.polling).mp polls
            exact other (sole context opened unclosed before)
        · intro unknown
          rw [kernel] at unknown
          cases unknown

end

/-- In every state that the server can come to, deleting a kernel is complete if and only
    if the kernel is known and the connection that is registered for it is its only one. -/
theorem deleted_iff (mac : List UInt8 → List UInt8 → List UInt8) (events : List Event) (outside : Outside)
    (kernelID : String) :
    Deleted outside (run (step mac) setUp events).1 kernelID ↔ Sole (run (step mac) setUp events).1 kernelID :=
  deleted_iff_sole (run_distinct mac events) outside kernelID

/-- A kernel to which no browser has connected yet. -/
theorem created_undeleted :
    ¬ Deleted quiet (run (step (fun _ _ => [])) setUp [.createSession request quietStart]).1 "kk" := by
  intro deleted
  exact deleted.followed (by decide +kernel)

end Zasper.KernelDeletion
