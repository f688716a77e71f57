import Zasper.KernelSupervisor

/-!
# The registries

When sessions, kernels, connections and processes belong together. Starting kernels and
connecting to them keeps the registries consistent. Stopping or deleting a kernel
leaves its session behind, and deleting a session leaves its kernel: the registries
are always consistent if and only if nothing is deleted (`consistent_iff`).
-/
namespace Zasper.Registries
open Zasper.Maps Zasper.Kernels Zasper.KernelManagers Zasper.KernelSupervisor Zasper.Runs
set_option linter.unusedSimpArgs false

/-- Sessions and connections have a kernel, and a kernel has a process that the server
    did not kill. -/
structure Consistent (r : Registry) : Prop where
  sessions : ∀ e ∈ r.sessions.entries, (r.kernels.get? e.2.kernel.id).isSome
  connections : ∀ e ∈ r.connections.entries, (r.kernels.get? e.1).isSome
  processes : ∀ e ∈ r.kernels.entries, e.2.pid ∈ r.processes

/-- Nothing that is known is deleted; a session counts as kept where its process cannot
    be killed, since the server ends itself then. -/
def Keeping (s : Supervisor) : Event → Prop
  | .createSession _ _ => True
  | .deleteSession req kills => s.exited = true ∨ ∀ session, s.registry.sessions.get? req.id = some session →
      stopKernelManager kills session.kernel.id s.registry = none
  | .stop kernelId _ => s.exited = true ∨ s.registry.kernels.get? kernelId = none
  | .deleteKernel kernelID _ => s.exited = true ∨ s.registry.connections.get? kernelID = none
  | .connect _ _ _ => True
  | .close _ => True

structure Inv (s : Supervisor) : Prop where
  consistent : Consistent s.registry
  issued : ∀ e ∈ s.registry.sessions.entries, e.1 ∈ s.issued
  /-- Each kernel was started for a session. -/
  served : ∀ e ∈ s.registry.kernels.entries, ∃ session ∈ s.registry.sessions.entries, session.2.kernel.id = e.1
  nodup : s.registry.processes.Nodup

section
variable {mac : List UInt8 → List UInt8 → List UInt8} {s s' : Supervisor} {e : Event}

/-- A new kernel comes with its session and its process. -/
theorem launched_keeps (inv : Inv s) (req : SessionModel) {outside : SessionStart} {pid : Nat}
    (process : newProcess s outside = some pid) : Inv (launched s req outside pid) := by
  obtain ⟨⟨sessions,connections,processes⟩,issued,served,nodup⟩ := inv
  refine ⟨⟨?_,?_,?_⟩,?_,?_,?_⟩
  · intro e member
    rcases Dict.mem_insert.mp member with rfl | ⟨old,-⟩
    · simp [launched,newSession]
    · exact Dict.isSome_get?_insert (sessions e old) _ _
  · intro e member
    exact Dict.isSome_get?_insert (connections e member) _ _
  · intro e member
    rcases Dict.mem_insert.mp member with rfl | ⟨old,-⟩
    · exact List.mem_cons_self
    · exact List.mem_cons_of_mem _ (processes e old)
  · intro e member
    rcases Dict.mem_insert.mp member with rfl | ⟨old,-⟩
    · exact List.mem_cons_of_mem _ List.mem_cons_self
    · exact List.mem_cons_of_mem _ (List.mem_cons_of_mem _ (issued e old))
  · intro e member
    rcases Dict.mem_insert.mp member with rfl | ⟨old,-⟩
    · exact ⟨_,Dict.mem_insert.mpr (.inl rfl),rfl⟩
    · obtain ⟨session,here,same⟩ := served e old
      refine ⟨session,Dict.mem_insert.mpr (.inr ⟨here,fun reused => ?_⟩),same⟩
      exact newSessionId_fresh s outside (reused ▸ issued session here)
  · exact List.nodup_cons.mpr ⟨(newProcess_fresh process).2,nodup⟩

theorem connected_keeps (inv : Inv s) {kernelId : String} {km : KernelManager}
    (known : s.registry.kernels.get? kernelId = some km) {kwsConn : KernelWebSocketConnection} :
    ∀ e ∈ (s.registry.connections.insert kernelId kwsConn).entries, (s.registry.kernels.get? e.1).isSome := by
  intro e member
  rcases Dict.mem_insert.mp member with rfl | ⟨old,-⟩
  · simp [known]
  · exact inv.consistent.connections e old

theorem change_keeps (change : Change mac s e s') (inv : Inv s) (keeping : Keeping s e) : Inv s' := by
  cases change with
  | gone exited => exact inv
  | existing live known => exact ⟨inv.consistent,fun e member => List.mem_cons_of_mem _ (inv.issued e member),inv.served,inv.nodup⟩
  | unstarted live unknown none =>
    exact ⟨inv.consistent,fun e member => List.mem_cons_of_mem _ (List.mem_cons_of_mem _ (inv.issued e member)),
      inv.served,inv.nodup⟩
  | launched live unknown process => exact launched_keeps inv _ process
  | absent live unknown => exact inv
  | exits live known fails => exact ⟨inv.consistent,inv.issued,inv.served,inv.nodup⟩
  | ended live known stopped =>
    rcases keeping with exited | fails
    · rw [live] at exited
      cases exited
    · rw [fails _ known] at stopped
      cases stopped
  | stopped live =>
    rcases keeping with exited | unknown
    · rw [live] at exited
      cases exited
    · rw [killKernelById_unknown unknown]
      exact inv
  | panicked live unknown => exact inv
  | deleted live known =>
    rcases keeping with exited | unknown
    · rw [live] at exited
      cases exited
    · rw [unknown] at known
      cases known
  | refused live => exact inv
  | connected live known =>
    exact ⟨⟨inv.consistent.sessions,connected_keeps inv known,inv.consistent.processes⟩,inv.issued,inv.served,inv.nodup⟩
  | closed live => exact ⟨inv.consistent,inv.issued,inv.served,inv.nodup⟩

/-- A kernel that is taken away leaves its session behind. -/
theorem erase_breaks (inv : Inv s) {kernelId : String} {km : KernelManager}
    (known : s.registry.kernels.get? kernelId = some km) {r : Registry} (sessions : r.sessions = s.registry.sessions)
    (kernels : r.kernels = s.registry.kernels.erase kernelId) : ¬ Consistent r := by
  intro consistent
  obtain ⟨session,member,same⟩ := inv.served _ (Dict.get?_eq_some.mp known)
  have left := consistent.sessions session (sessions ▸ member)
  rw [kernels,same,Dict.get?_erase_self] at left
  cases left

theorem change_breaks (change : Change mac s e s') (inv : Inv s) (consistent : Consistent s'.registry) :
    Keeping s e := by
  cases change with
  | gone exited => cases e <;> first | trivial | exact .inl exited
  | existing live known => trivial
  | unstarted live unknown none => trivial
  | launched live unknown process => trivial
  | absent live unknown =>
    right
    intro session known
    rw [unknown] at known
    cases known
  | exits live known fails =>
    right
    intro session here
    rw [known] at here
    cases here
    exact fails
  | @ended req kills session registry live known stopped =>
    -- the kernel of the session stays, and its process is killed
    exfalso
    obtain ⟨km,kernel⟩ := Option.isSome_iff_exists.mp (inv.consistent.sessions _ (Dict.get?_eq_some.mp known))
    have entry := Dict.get?_eq_some.mp kernel
    simp only [stopKernelManager,kernel,Option.getD_some,shutdownKernel] at stopped
    split_ifs at stopped
    obtain rfl := Option.some.inj stopped
    have alive : km.pid ∈ s.registry.processes.erase km.pid := consistent.processes _ entry
    exact ((List.Nodup.mem_erase_iff inv.nodup).mp alive).1 rfl
  | @stopped kernelId outside live =>
    right
    by_contra known
    obtain ⟨km,known⟩ := Option.ne_none_iff_exists'.mp known
    exact erase_breaks inv known (by simp) (by simp) consistent
  | panicked live unknown => exact .inr unknown
  | @deleted kernelID outside kwsConn live known =>
    exfalso
    obtain ⟨km,kernel⟩ := Option.isSome_iff_exists.mp (inv.consistent.connections _ (Dict.get?_eq_some.mp known))
    exact erase_breaks inv kernel (by simp [kernelDelete_known known]) (by simp [kernelDelete_known known]) consistent
  | refused live => trivial
  | connected live known => trivial
  | closed live => trivial

theorem inv_setUp : Inv setUp :=
  ⟨⟨by simp [setUp],by simp [setUp],by simp [setUp]⟩,by simp [setUp],by simp [setUp],by simp [setUp]⟩

end

/-- The registries are consistent in every state of a run if and only if no step of the
    run deletes anything. -/
theorem consistent_iff (mac : List UInt8 → List UInt8 → List UInt8) (events : List Event) :
    Always (step mac) (fun s => Consistent s.registry) setUp events ↔ Meets (step mac) Keeping setUp events :=
  always_iff_meets (fun _ inv => inv.consistent) (fun s e inv keeping => change_keeps (step_change s e) inv keeping)
    (fun s e inv consistent => change_breaks (step_change s e) inv consistent) inv_setUp events

/-- A session is created and its kernel stopped. -/
def createdStopped : List Event := [.createSession request quietStart,.stop "kk" quiet]

theorem createdStopped_inconsistent :
    ¬ Always (step (fun _ _ => [])) (fun s => Consistent s.registry) setUp createdStopped := by
  intro always
  have created : Inv (step (fun _ _ => []) setUp (.createSession request quietStart)).1 :=
    change_keeps (step_change setUp _) inv_setUp trivial
  rcases change_breaks (step_change _ (.stop "kk" quiet)) created always.2.2 with exited | unknown
  · exact absurd exited (by decide +kernel)
  · exact absurd unknown (by decide +kernel)

end Zasper.Registries
