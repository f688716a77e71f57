import Mathlib.Data.List.Perm.Basic
import Zasper.KernelSupervisor

/-!
# The ports of the kernels

Whether kernels share ports, and whether ports are given back. A kernel whose searches
all find a port has five ports of its own; a search without a result goes on with the
port 0 (`apart_iff`). Ports are claimed before a kernel is launched and never released:
the claimed ports are those of the kernels if and only if no start fails after a search
has found a port and no kernel is taken away (`accounted_iff`).
-/
namespace Zasper.KernelPorts
open Zasper.Maps Zasper.Kernels Zasper.KernelManagers Zasper.KernelSupervisor Zasper.Runs
set_option linter.unusedSimpArgs false

/-- The ports of a kernel: shell, iopub, stdin, heartbeat and control. -/
def kernelPorts (km : KernelManager) : List Nat := portsOf km.connectionInfo

section
variable (s : Supervisor) (req : SessionModel) (outside : SessionStart) (pid : Nat)

theorem newKernel_ports :
    kernelPorts (newKernel s req outside pid) = (findAll s.currentlyUsedPorts outside.searches.list).2 :=
  congrArg Prod.snd (preLaunchPorts_eq s.currentlyUsedPorts outside.searches _)

theorem claimed_ports :
    (claimed s outside).currentlyUsedPorts = (findAll s.currentlyUsedPorts outside.searches.list).1 := rfl

theorem launched_ports :
    (launched s req outside pid).currentlyUsedPorts = (claimed s outside).currentlyUsedPorts := rfl

end

/-! ## Ports of one kernel only -/

/-- Every kernel has five ports from 5000 to 5999, and no two kernels have one in common. -/
structure Apart (kernels : Dict String KernelManager) : Prop where
  own : ∀ e ∈ kernels.entries, (kernelPorts e.2).Nodup ∧ ∀ port ∈ kernelPorts e.2, 5000 ≤ port ∧ port ≤ 5999
  apart : ∀ a ∈ kernels.entries, ∀ b ∈ kernels.entries, a.1 ≠ b.1 → ∀ port ∈ kernelPorts a.2, port ∉ kernelPorts b.2

/-- Every search of a start that launches a kernel finds a port. -/
def PortsFound (s : Supervisor) : Event → Prop
  | .createSession req outside => s.exited = true ∨ s.registry.sessions.get? req.id ≠ none ∨
      newProcess s outside = none ∨ Supplied s.currentlyUsedPorts outside.searches.list
  | _ => True

structure ApartInv (s : Supervisor) : Prop where
  apart : Apart s.registry.kernels
  /-- The ports of the kernels stay claimed. -/
  used : ∀ e ∈ s.registry.kernels.entries, ∀ port ∈ kernelPorts e.2, port ∈ s.currentlyUsedPorts

section
variable {mac : List UInt8 → List UInt8 → List UInt8} {s s' : Supervisor} {e : Event}

/-- What is apart stays apart when kernels are taken away. -/
theorem Apart.erase {kernels : Dict String KernelManager} (apart : Apart kernels) (kernelId : String) :
    Apart (kernels.erase kernelId) := by
  constructor
  · intro e member
    exact apart.own e (Dict.mem_erase.mp member).1
  · intro a first b second
    exact apart.apart a (Dict.mem_erase.mp first).1 b (Dict.mem_erase.mp second).1

theorem ApartInv.erase {kernelId : String} {registry : Registry} (inv : ApartInv s)
    (kernels : registry.kernels = s.registry.kernels.erase kernelId) : ApartInv { s with registry := registry } := by
  constructor
  · change Apart registry.kernels
    rw [kernels]
    exact inv.apart.erase kernelId
  · intro e member
    change e ∈ registry.kernels.entries at member
    rw [kernels] at member
    exact inv.used e (Dict.mem_erase.mp member).1

/-- Ports that are claimed by a start stay claimed. -/
theorem used_of_claimed {port : Nat} (old : port ∈ s.currentlyUsedPorts) (outside : SessionStart) :
    port ∈ (claimed s outside).currentlyUsedPorts := by
  obtain ⟨new,split,-⟩ := findAll_claims outside.searches.list s.currentlyUsedPorts
  rw [claimed_ports,split]
  exact List.mem_append_left _ old

theorem launched_apart (inv : ApartInv s) (req : SessionModel) {outside : SessionStart} {pid : Nat}
    (supplied : Supplied s.currentlyUsedPorts outside.searches.list) : ApartInv (launched s req outside pid) := by
  obtain ⟨claims,nodup,ports⟩ := findAll_supplied supplied
  rw [← newKernel_ports s req outside pid] at claims nodup ports
  have unused : ∀ e ∈ s.registry.kernels.entries, ∀ port ∈ kernelPorts e.2,
      port ∉ kernelPorts (newKernel s req outside pid) := by
    intro e member port old new
    exact (ports port new).1 (inv.used e member port old)
  refine ⟨⟨?_,?_⟩,?_⟩
  · intro e member
    rcases Dict.mem_insert.mp member with rfl | ⟨old,-⟩
    · exact ⟨nodup,fun port new => (ports port new).2⟩
    · exact inv.apart.own e old
  · intro a first b second different
    rcases Dict.mem_insert.mp first with rfl | ⟨firstOld,-⟩
    · rcases Dict.mem_insert.mp second with rfl | ⟨secondOld,-⟩
      · exact absurd rfl different
      · exact fun port new old => unused b secondOld port old new
    · rcases Dict.mem_insert.mp second with rfl | ⟨secondOld,-⟩
      · exact unused a firstOld
      · exact inv.apart.apart a firstOld b secondOld different
  · intro e member port here
    rw [launched_ports]
    rcases Dict.mem_insert.mp member with rfl | ⟨old,-⟩
    · rw [claimed_ports,claims]
      exact List.mem_append_right _ here
    · exact used_of_claimed (inv.used e old port here) outside

theorem change_apart (change : Change mac s e s') (inv : ApartInv s) (found : PortsFound s e) : ApartInv s' := by
  cases change with
  | gone exited => exact inv
  | existing live known => exact ⟨inv.apart,inv.used⟩
  | @unstarted req outside live unknown none =>
    exact ⟨inv.apart,fun e member port here => used_of_claimed (inv.used e member port here) outside⟩
  | launched live unknown process =>
    rcases found with exited | known | none | supplied
    · rw [live] at exited
      cases exited
    · exact absurd unknown known
    · rw [process] at none
      cases none
    · exact launched_apart inv _ supplied
  | absent live unknown => exact inv
  | exits live known fails => exact ⟨inv.apart,inv.used⟩
  | ended live known stopped =>
    simp only [stopKernelManager,shutdownKernel] at stopped
    split_ifs at stopped
    obtain rfl := Option.some.inj stopped
    exact ⟨inv.apart,inv.used⟩
  | stopped live => exact inv.erase (killKernelById_kernels ..)
  | panicked live unknown => exact inv
  | deleted live known =>
    rw [kernelDelete_known known]
    exact inv.erase (killKernelById_kernels ..)
  | refused live => exact inv
  | connected live known => exact ⟨inv.apart,inv.used⟩
  | closed live => exact ⟨inv.apart,inv.used⟩

/-- A search without a result gives the new kernel the port 0. -/
theorem launched_unsupplied {req : SessionModel} {outside : SessionStart} {pid : Nat}
    (unsupplied : ¬ Supplied s.currentlyUsedPorts outside.searches.list) :
    ∃ e ∈ (launched s req outside pid).registry.kernels.entries, 0 ∈ kernelPorts e.2 := by
  refine ⟨_,Dict.mem_insert.mpr (.inl rfl),?_⟩
  rw [newKernel_ports]
  exact findAll_unsupplied unsupplied

theorem change_found (change : Change mac s e s') (apart : Apart s'.registry.kernels) : PortsFound s e := by
  cases change with
  | gone exited => cases e <;> first | trivial | exact .inl exited
  | existing live known => exact .inr (.inl (by simp [known]))
  | unstarted live unknown none => exact .inr (.inr (.inl none))
  | @launched req outside pid live unknown process =>
    by_cases supplied : Supplied s.currentlyUsedPorts outside.searches.list
    · exact .inr (.inr (.inr supplied))
    · obtain ⟨e,member,zero⟩ := launched_unsupplied supplied
      have range := (apart.own e member).2 0 zero
      omega
  | _ => trivial

end

/-- In every state of a run the kernels have five ports of their own, if and only if every
    start that launches a kernel found a port with each of its searches. -/
theorem apart_iff (mac : List UInt8 → List UInt8 → List UInt8) (events : List Event) :
    Always (step mac) (fun s => Apart s.registry.kernels) setUp events ↔ Meets (step mac) PortsFound setUp events :=
  always_iff_meets (fun _ inv => inv.apart) (fun s e inv found => change_apart (step_change s e) inv found)
    (fun s e _ apart => change_found (step_change s e) apart)
    ⟨⟨by simp [setUp],by simp [setUp]⟩,by simp [setUp]⟩ events

/-- A search that draws nothing but a port that cannot be bound. -/
def blockedSearch : Search := fun attempt => { quietSearch attempt with available := false }

/-- A start whose searches find nothing; its process comes up. -/
def blockedStart : SessionStart :=
  { quietStart with searches := ⟨blockedSearch,blockedSearch,blockedSearch,blockedSearch,blockedSearch⟩ }

theorem blocked_unapart :
    ¬ Always (step (fun _ _ => [])) (fun s => Apart s.registry.kernels) setUp [.createSession request blockedStart] := by
  intro always
  have process : newProcess setUp blockedStart = some 1 := by decide +kernel
  have unsupplied : ¬ Supplied [] blockedStart.searches.list := by
    rintro ⟨port,⟨attempt,small,⟨available,-⟩,-,-⟩,-⟩
    cases available
  rcases change_found (step_change setUp (.createSession request blockedStart)) always.2 with
    exited | known | none | supplied
  · cases exited
  · exact known rfl
  · rw [process] at none
    cases none
  · exact unsupplied supplied

/-! ## Ports that are given back -/

/-- The ports of all kernels. -/
def allPorts (kernels : Dict String KernelManager) : List Nat := kernels.entries.flatMap (fun e => kernelPorts e.2)

/-- The claimed ports are those of the kernels, each once. -/
structure Accounted (s : Supervisor) : Prop where
  ports : s.currentlyUsedPorts.Perm (allPorts s.registry.kernels)
  once : s.currentlyUsedPorts.Nodup

/-- A start that launches a kernel finds a port with each search, one that does not
    finds none, and no kernel that is known is taken away. -/
def PortsKept (s : Supervisor) : Event → Prop
  | .createSession req outside => s.exited = true ∨ s.registry.sessions.get? req.id ≠ none ∨
      (newProcess s outside = none ∧ ∀ search ∈ outside.searches.list, Exhausted s.currentlyUsedPorts search) ∨
      (newProcess s outside ≠ none ∧ Supplied s.currentlyUsedPorts outside.searches.list)
  | .stop kernelId _ => s.exited = true ∨ s.registry.kernels.get? kernelId = none
  | .deleteKernel kernelID _ => s.exited = true ∨ s.registry.connections.get? kernelID = none ∨
      s.registry.kernels.get? kernelID = none
  | _ => True

structure AccountedInv (s : Supervisor) : Prop where
  accounted : Accounted s
  range : ∀ port ∈ s.currentlyUsedPorts, 5000 ≤ port
  issued : ∀ e ∈ s.registry.kernels.entries, e.1 ∈ s.issued

theorem length_allPorts (kernels : Dict String KernelManager) :
    (allPorts kernels).length = 5 * kernels.entries.length := by
  simp [allPorts,List.length_flatMap,kernelPorts,portsOf,Nat.mul_comm]

/-- A kernel that is taken away takes its ports with it. -/
theorem length_erase_lt {kernels : Dict String KernelManager} {kernelId : String}
    (known : kernels.get? kernelId ≠ none) :
    (allPorts (kernels.erase kernelId)).length < (allPorts kernels).length := by
  obtain ⟨km,found⟩ := Option.ne_none_iff_exists'.mp known
  have fewer : (kernels.erase kernelId).entries.length < kernels.entries.length := by
    rw [Dict.erase_entries]
    refine List.length_filter_lt_length_iff_exists.mpr ⟨_,Dict.get?_eq_some.mp found,?_⟩
    simp
  rw [length_allPorts,length_allPorts]
  omega

theorem allPorts_insert {kernels : Dict String KernelManager} {kernelId : String} (new : kernels.get? kernelId = none)
    (km : KernelManager) : (allPorts (kernels.insert kernelId km)).Perm (kernelPorts km ++ allPorts kernels) :=
  (Dict.insert_perm new km).flatMap_right _

section
variable {mac : List UInt8 → List UInt8 → List UInt8} {s s' : Supervisor} {e : Event}

theorem AccountedInv.same (inv : AccountedInv s) {used : List Nat} {registry : Registry} {issued : List String}
    {opened : List (String × Nat)} {closed : List Nat} {exited : Bool} (ports : used = s.currentlyUsedPorts)
    (kernels : registry.kernels = s.registry.kernels) (grown : ∀ id ∈ s.issued, id ∈ issued) :
    AccountedInv ⟨registry,used,issued,opened,closed,exited⟩ := by
  subst ports
  refine ⟨⟨?_,inv.accounted.once⟩,inv.range,?_⟩
  · simpa only [kernels] using inv.accounted.ports
  · intro e member
    exact grown _ (inv.issued e (kernels ▸ member))

theorem launched_accounted (inv : AccountedInv s) (req : SessionModel) {outside : SessionStart} {pid : Nat}
    (supplied : Supplied s.currentlyUsedPorts outside.searches.list) : AccountedInv (launched s req outside pid) := by
  obtain ⟨claims,nodup,ports⟩ := findAll_supplied supplied
  rw [← newKernel_ports s req outside pid] at claims nodup ports
  have after : (launched s req outside pid).currentlyUsedPorts =
      s.currentlyUsedPorts ++ kernelPorts (newKernel s req outside pid) := by
    rw [launched_ports,claimed_ports,claims]
  have kernels := allPorts_insert (newKernelId_unknown s outside inv.issued) (newKernel s req outside pid)
  refine ⟨⟨?_,?_⟩,?_,?_⟩
  · rw [after]
    exact ((inv.accounted.ports.append_right _).trans List.perm_append_comm).trans kernels.symm
  · rw [after]
    refine List.nodup_append.mpr ⟨inv.accounted.once,nodup,?_⟩
    rintro port old other new rfl
    exact (ports port new).1 old
  · intro port here
    rw [after] at here
    rcases List.mem_append.mp here with old | new
    · exact inv.range port old
    · exact (ports port new).2.1
  · intro e member
    rcases Dict.mem_insert.mp member with rfl | ⟨old,-⟩
    · exact List.mem_cons_self
    · exact List.mem_cons_of_mem _ (List.mem_cons_of_mem _ (inv.issued e old))

theorem change_accounted (change : Change mac s e s') (inv : AccountedInv s) (kept : PortsKept s e) :
    AccountedInv s' := by
  cases change with
  | gone exited => exact inv
  | existing live known => exact inv.same rfl rfl (fun id => List.mem_cons_of_mem _)
  | @unstarted req outside live unknown none =>
    rcases kept with exited | known | ⟨_,exhausted⟩ | ⟨process,_⟩
    · rw [live] at exited
      cases exited
    · exact absurd unknown known
    · have idle := (findAll_idle_iff _ _).mpr exhausted
      exact inv.same idle rfl (fun id old => List.mem_cons_of_mem _ (List.mem_cons_of_mem _ old))
    · exact absurd none process
  | launched live unknown process =>
    rcases kept with exited | known | ⟨none,_⟩ | ⟨_,supplied⟩
    · rw [live] at exited
      cases exited
    · exact absurd unknown known
    · rw [process] at none
      cases none
    · exact launched_accounted inv _ supplied
  | absent live unknown => exact inv
  | exits live known fails => exact inv.same rfl rfl (fun id old => old)
  | ended live known stopped =>
    simp only [stopKernelManager,shutdownKernel] at stopped
    split_ifs at stopped
    obtain rfl := Option.some.inj stopped
    exact inv.same rfl rfl (fun id old => old)
  | stopped live =>
    rcases kept with exited | unknown
    · rw [live] at exited
      cases exited
    · rw [killKernelById_unknown unknown]
      exact inv
  | panicked live unknown => exact inv
  | deleted live known =>
    rcases kept with exited | unknown | unknown
    · rw [live] at exited
      cases exited
    · rw [unknown] at known
      cases known
    · rw [kernelDelete_known known,killKernelById_unknown (by exact unknown)]
      exact inv.same rfl rfl (fun id old => old)
  | refused live => exact inv
  | connected live known => exact inv.same rfl rfl (fun id old => old)
  | closed live => exact inv.same rfl rfl (fun id old => old)

/-- Fewer kernels have fewer ports than are claimed. -/
theorem erase_unaccounted (inv : AccountedInv s) {kernelId : String} {registry : Registry}
    (accounted : Accounted { s with registry := registry })
    (kernels : registry.kernels = s.registry.kernels.erase kernelId) : s.registry.kernels.get? kernelId = none := by
  by_contra known
  have before := inv.accounted.ports.length_eq
  have after : s.currentlyUsedPorts.length = (allPorts registry.kernels).length := accounted.ports.length_eq
  have fewer := length_erase_lt known
  rw [kernels] at after
  omega

/-- A start that claims ports without a kernel leaves them behind. -/
theorem claimed_accounted (inv : AccountedInv s) {outside : SessionStart} (accounted : Accounted (claimed s outside)) :
    ∀ search ∈ outside.searches.list, Exhausted s.currentlyUsedPorts search := by
  obtain ⟨new,split,-⟩ := findAll_claims outside.searches.list s.currentlyUsedPorts
  have before := inv.accounted.ports.length_eq
  have after : (claimed s outside).currentlyUsedPorts.length = (allPorts s.registry.kernels).length :=
    accounted.ports.length_eq
  rw [claimed_ports,split,List.length_append] at after
  have none : new = [] := List.eq_nil_of_length_eq_zero (by omega)
  refine (findAll_idle_iff _ _).mp ?_
  rw [split,none,List.append_nil]

theorem launched_accounted_supplied (inv : AccountedInv s) {req : SessionModel} {outside : SessionStart} {pid : Nat}
    (accounted : Accounted (launched s req outside pid)) : Supplied s.currentlyUsedPorts outside.searches.list := by
  by_contra unsupplied
  obtain ⟨e,member,zero⟩ := @launched_unsupplied s req outside pid unsupplied
  have claimedZero : 0 ∈ (launched s req outside pid).currentlyUsedPorts :=
    accounted.ports.mem_iff.mpr (List.mem_flatMap.mpr ⟨e,member,zero⟩)
  obtain ⟨new,split,range⟩ := findAll_claims outside.searches.list s.currentlyUsedPorts
  rw [launched_ports,claimed_ports,split] at claimedZero
  rcases List.mem_append.mp claimedZero with old | here
  · exact absurd (inv.range 0 old) (by omega)
  · exact absurd (range 0 here).1 (by omega)

theorem change_kept (change : Change mac s e s') (inv : AccountedInv s) (accounted : Accounted s') : PortsKept s e := by
  cases change with
  | gone exited => cases e <;> first | trivial | exact .inl exited
  | existing live known => exact .inr (.inl (by simp [known]))
  | unstarted live unknown none => exact .inr (.inr (.inl ⟨none,claimed_accounted inv accounted⟩))
  | launched live unknown process =>
    exact .inr (.inr (.inr ⟨by simp [process],launched_accounted_supplied inv accounted⟩))
  | stopped live => exact .inr (erase_unaccounted inv accounted (killKernelById_kernels ..))
  | panicked live unknown => exact .inr (.inl unknown)
  | deleted live known =>
    rw [kernelDelete_known known] at accounted
    exact .inr (.inr (erase_unaccounted inv accounted (killKernelById_kernels ..)))
  | _ => trivial

end

/-- In every state of a run the claimed ports are those of the kernels, each once, if and
    only if no start left a port behind and no kernel was taken away. -/
theorem accounted_iff (mac : List UInt8 → List UInt8 → List UInt8) (events : List Event) :
    Always (step mac) Accounted setUp events ↔ Meets (step mac) PortsKept setUp events :=
  always_iff_meets (fun _ inv => inv.accounted) (fun s e inv kept => change_accounted (step_change s e) inv kept)
    (fun s e inv accounted => change_kept (step_change s e) inv accounted)
    ⟨⟨by simp [setUp,allPorts],by simp [setUp]⟩,by simp [setUp],by simp [setUp]⟩ events

/-- The ports of a kernel that is stopped stay claimed. -/
theorem stopped_unaccounted :
    ¬ Always (step (fun _ _ => [])) Accounted setUp [.createSession request quietStart,.stop "kk" quiet] := by
  intro always
  have ports := always.2.2.ports.length_eq
  revert ports
  decide +kernel

end Zasper.KernelPorts
