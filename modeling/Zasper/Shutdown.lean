import Zasper.KernelSupervisor

/-!
# Shutting down

The end of the server. On a signal it kills the processes of the kernels that it knows, in
any order. Whenever the signal comes, no kernel is left running, if every kernel that was
taken from the registry had been killed before, and the server had not ended itself while
kernels ran, and only then (`none_outlives_iff`).
-/
namespace Zasper.Shutdown
open Zasper.Maps Zasper.Kernels Zasper.KernelManagers Zasper.KernelSupervisor Zasper.Runs
set_option linter.unusedSimpArgs false

/-- The kernels are killed in the order in which the map yields them. -/
def cleanup (outside : Outside) (kernels : List (String × KernelManager)) (registry : Registry) : Registry :=
  kernels.foldl (fun registry e => killKernel outside e.2.pid registry) registry

/-- A server that has ended itself gets no signal. -/
def shutDown (outside : Outside) (kernels : List (String × KernelManager)) (s : Supervisor) : Supervisor :=
  if s.exited then s else { s with registry := cleanup outside kernels s.registry }

/-- Where every running process can be killed, none is left. -/
def NoneOutlives (s : Supervisor) : Prop :=
  ∀ (outside : Outside) (kernels : List (String × KernelManager)), kernels.Perm s.registry.kernels.entries →
    (∀ pid ∈ s.registry.processes, outside.kills pid = true) →
      (shutDown outside kernels s).registry.processes = []

/-! ## What is killed -/

/-- The process is that of a kernel that the server knows. -/
def Owned (kernels : List (String × KernelManager)) (pid : Nat) : Prop := ∃ e ∈ kernels, e.2.pid = pid

theorem mem_killKernel {outside : Outside} {pid other : Nat} {registry : Registry} (nodup : registry.processes.Nodup) :
    other ∈ (killKernel outside pid registry).processes ↔
      other ∈ registry.processes ∧ ¬ (pid ≠ 0 ∧ outside.kills pid = true ∧ other = pid) := by
  unfold killKernel
  split_ifs with killed
  · rw [nodup.mem_erase_iff]
    tauto
  · tauto

/-- What is left are the processes of no kernel, and those that could not be killed. -/
theorem mem_cleanup {outside : Outside} {kernels : List (String × KernelManager)} (numbered : ∀ e ∈ kernels, e.2.pid ≠ 0)
    {registry : Registry} (nodup : registry.processes.Nodup) (pid : Nat) :
    pid ∈ (cleanup outside kernels registry).processes ↔
      pid ∈ registry.processes ∧ ¬ (Owned kernels pid ∧ outside.kills pid = true) := by
  induction kernels generalizing registry with
  | nil => simp [cleanup,Owned]
  | cons e kernels ih =>
    obtain ⟨here,later⟩ := List.forall_mem_cons.mp numbered
    have rest := @ih later (killKernel outside e.2.pid registry) (killKernel_nodup nodup)
    rw [mem_killKernel nodup] at rest
    refine rest.trans ?_
    simp only [Owned,List.mem_cons,exists_eq_or_imp]
    constructor
    · rintro ⟨⟨runs,notThis⟩,notLater⟩
      refine ⟨runs,?_⟩
      rintro ⟨rfl | owned,kills⟩
      · exact notThis ⟨here,kills,rfl⟩
      · exact notLater ⟨owned,kills⟩
    · rintro ⟨runs,none⟩
      refine ⟨⟨runs,?_⟩,?_⟩
      · rintro ⟨-,kills,rfl⟩
        exact none ⟨.inl rfl,kills⟩
      · rintro ⟨owned,kills⟩
        exact none ⟨.inr owned,kills⟩

/-! ## Runs -/

/-- A kernel that is taken from the registry does not run any more, or its process is also
    that of another kernel. -/
def Ends (s : Supervisor) (kernelId : String) (outside : Outside) : Prop :=
  ∀ km, s.registry.kernels.get? kernelId = some km → km.pid ∈ s.registry.processes →
    outside.kills km.pid = true ∨ ∃ e ∈ s.registry.kernels.entries, e.1 ≠ kernelId ∧ e.2.pid = km.pid

/-- What is asked of the steps of a run. -/
def Ending (s : Supervisor) : Event → Prop
  | .deleteSession req kills => s.exited = true ∨ ∀ session, s.registry.sessions.get? req.id = some session →
      stopKernelManager kills session.kernel.id s.registry = none → s.registry.processes = []
  | .stop kernelId outside => s.exited = true ∨ Ends s kernelId outside
  | .deleteKernel kernelID outside =>
    s.exited = true ∨ ((s.registry.connections.get? kernelID).isSome → Ends s kernelID outside)
  | _ => True

structure Sound (s : Supervisor) : Prop where
  nodup : s.registry.processes.Nodup
  numbered : ∀ e ∈ s.registry.kernels.entries, e.2.pid ≠ 0
  issued : ∀ e ∈ s.registry.kernels.entries, e.1 ∈ s.issued

/-- The server knows all kernels that run, and none runs once it has ended itself. -/
def Known (s : Supervisor) : Prop :=
  if s.exited then s.registry.processes = []
  else ∀ pid ∈ s.registry.processes, Owned s.registry.kernels.entries pid

theorem noneOutlives_iff_known {s : Supervisor} (sound : Sound s) : NoneOutlives s ↔ Known s := by
  unfold NoneOutlives Known
  cases exited : s.exited with
  | true =>
    simp only [shutDown,exited,↓reduceIte]
    constructor
    · intro none
      exact none ⟨true,0,"","","",fun _ => true⟩ _ (List.Perm.refl _) (fun _ _ => rfl)
    · intro none _ _ _ _
      exact none
  | false =>
    simp only [shutDown,exited,Bool.false_eq_true,↓reduceIte]
    constructor
    · intro none pid runs
      by_contra unowned
      have left := (@mem_cleanup ⟨true,0,"","","",fun _ => true⟩ _ sound.numbered _ sound.nodup pid).mpr
        ⟨runs,fun both => unowned both.1⟩
      rw [none _ _ (List.Perm.refl _) (fun _ _ => rfl)] at left
      cases left
    · intro owned outside kernels order kills
      rw [List.eq_nil_iff_forall_not_mem]
      intro pid left
      have numbered : ∀ e ∈ kernels, e.2.pid ≠ 0 := fun e member => sound.numbered e (order.mem_iff.mp member)
      obtain ⟨runs,notKilled⟩ := (mem_cleanup numbered sound.nodup pid).mp left
      obtain ⟨e,member,same⟩ := owned pid runs
      exact notKilled ⟨⟨e,order.mem_iff.mpr member,same⟩,kills pid runs⟩

section
variable {mac : List UInt8 → List UInt8 → List UInt8} {s s' : Supervisor} {e : Event}

theorem change_sound (change : Change mac s e s') (sound : Sound s) : Sound s' := by
  obtain ⟨nodup,numbered,issued⟩ := sound
  cases change with
  | gone exited => exact ⟨nodup,numbered,issued⟩
  | existing live known => exact ⟨nodup,numbered,fun e member => List.mem_cons_of_mem _ (issued e member)⟩
  | unstarted live unknown none =>
    exact ⟨nodup,numbered,fun e member => List.mem_cons_of_mem _ (List.mem_cons_of_mem _ (issued e member))⟩
  | @launched req outside pid live unknown process =>
    obtain ⟨positive,fresh⟩ := newProcess_fresh process
    refine ⟨List.nodup_cons.mpr ⟨fresh,nodup⟩,?_,?_⟩
    · intro e member
      rcases Dict.mem_insert.mp member with rfl | ⟨old,-⟩
      · exact positive
      · exact numbered e old
    · intro e member
      rcases Dict.mem_insert.mp member with rfl | ⟨old,-⟩
      · exact List.mem_cons_self
      · exact List.mem_cons_of_mem _ (List.mem_cons_of_mem _ (issued e old))
  | absent live unknown => exact ⟨nodup,numbered,issued⟩
  | exits live known fails => exact ⟨nodup,numbered,issued⟩
  | ended live known stopped =>
    simp only [stopKernelManager,shutdownKernel] at stopped
    split_ifs at stopped
    obtain rfl := Option.some.inj stopped
    exact ⟨nodup.erase _,numbered,issued⟩
  | stopped live =>
    refine ⟨killKernel_nodup nodup,?_,?_⟩
    · intro e member
      rw [killKernelById_kernels] at member
      exact numbered e (Dict.mem_erase.mp member).1
    · intro e member
      rw [killKernelById_kernels] at member
      exact issued e (Dict.mem_erase.mp member).1
  | panicked live unknown => exact ⟨nodup,numbered,issued⟩
  | deleted live known =>
    rw [kernelDelete_known known]
    refine ⟨killKernel_nodup nodup,?_,?_⟩
    · intro e member
      rw [killKernelById_kernels] at member
      exact numbered e (Dict.mem_erase.mp member).1
    · intro e member
      rw [killKernelById_kernels] at member
      exact issued e (Dict.mem_erase.mp member).1
  | refused live => exact ⟨nodup,numbered,issued⟩
  | connected live known => exact ⟨nodup,numbered,issued⟩
  | closed live => exact ⟨nodup,numbered,issued⟩

/-- Once a kernel is taken from the registry the server knows all that run, if it did
    before and the kernel ended, and only then. -/
theorem owned_killed_iff {registry : Registry} (sound : Sound s) (processes : registry.processes = s.registry.processes)
    (kernels : registry.kernels = s.registry.kernels)
    (owned : ∀ pid ∈ s.registry.processes, Owned s.registry.kernels.entries pid) (kernelId : String) (outside : Outside) :
    (∀ pid ∈ (killKernelById outside kernelId registry).processes,
      Owned (killKernelById outside kernelId registry).kernels.entries pid) ↔ Ends s kernelId outside := by
  cases known : s.registry.kernels.get? kernelId with
  | none =>
    rw [killKernelById_unknown (kernels ▸ known),processes,kernels]
    refine iff_of_true owned ?_
    intro km here
    rw [known] at here
    cases here
  | some km =>
    have entry : (kernelId,km) ∈ s.registry.kernels.entries := Dict.get?_eq_some.mp known
    have nodup : registry.processes.Nodup := processes ▸ sound.nodup
    have left : ∀ pid, pid ∈ (killKernelById outside kernelId registry).processes ↔
        pid ∈ s.registry.processes ∧ ¬ (outside.kills km.pid = true ∧ pid = km.pid) := by
      intro pid
      have positive : km.pid ≠ 0 := sound.numbered _ entry
      have killed := @mem_killKernel outside km.pid pid registry nodup
      rw [processes] at killed
      simp only [killKernelById,kernels,known,Option.getD_some]
      rw [killed]
      tauto
    rw [killKernelById_kernels,kernels]
    constructor
    · intro after other here runs
      obtain rfl : km = other := Option.some.inj (known.symm.trans here)
      by_cases kills : outside.kills km.pid = true
      · exact .inl kills
      · obtain ⟨e,member,same⟩ := after km.pid ((left _).mpr ⟨runs,fun both => kills both.1⟩)
        obtain ⟨there,different⟩ := Dict.mem_erase.mp member
        exact .inr ⟨e,there,different,same⟩
    · intro ends pid after
      obtain ⟨runs,notKilled⟩ := (left pid).mp after
      by_cases own : pid = km.pid
      · subst own
        rcases ends km known runs with kills | ⟨e,member,different,same⟩
        · exact absurd ⟨kills,rfl⟩ notKilled
        · exact ⟨e,Dict.mem_erase.mpr ⟨member,different⟩,same⟩
      · obtain ⟨e,member,same⟩ := owned pid runs
        refine ⟨e,Dict.mem_erase.mpr ⟨member,?_⟩,same⟩
        intro this
        have isThis : e.2 = km := Option.some.inj ((Dict.get?_eq_some.mpr (this ▸ member)).symm.trans known)
        exact own (same.symm.trans (congrArg KernelManager.pid isThis))

theorem known_live (live : s.exited = false) :
    Known s ↔ ∀ pid ∈ s.registry.processes, Owned s.registry.kernels.entries pid := by
  simp only [Known,live,Bool.false_eq_true,↓reduceIte]

/-- A step after which the server knows all kernels that run is a good one, and a good step
    keeps this so. -/
theorem change_known_iff (change : Change mac s e s') (sound : Sound s) (known : Known s) : Known s' ↔ Ending s e := by
  cases change with
  | gone exited =>
    refine iff_of_true known ?_
    cases e <;> first | trivial | exact .inl exited
  | existing live => exact iff_of_true known trivial
  | unstarted live => exact iff_of_true known trivial
  | @launched req outside pid live unknown process =>
    refine iff_of_true ((known_live ?_).mpr ?_) trivial
    · exact live
    · intro other runs
      rcases List.mem_cons.mp runs with rfl | old
      · exact ⟨_,Dict.mem_insert.mpr (.inl rfl),rfl⟩
      · obtain ⟨e,member,same⟩ := (known_live live).mp known other old
        refine ⟨e,Dict.mem_insert.mpr (.inr ⟨member,?_⟩),same⟩
        intro reused
        exact newKernelId_fresh s outside (List.mem_cons_of_mem _ (reused ▸ sound.issued e member))
  | absent live unknown =>
    refine iff_of_true known (.inr ?_)
    intro session here
    rw [unknown] at here
    cases here
  | exits live isSession fails =>
    simp only [Known,Ending,live,Bool.false_eq_true,↓reduceIte,false_or]
    constructor
    · intro none _ _ _
      exact none
    · intro ending
      exact ending _ isSession fails
  | ended live isSession stopped =>
    refine iff_of_true ?_ (.inr ?_)
    · simp only [stopKernelManager,shutdownKernel] at stopped
      split_ifs at stopped
      obtain rfl := Option.some.inj stopped
      refine (known_live ?_).mpr ?_
      · exact live
      · intro pid left
        exact (known_live live).mp known pid (List.mem_of_mem_erase left)
    · intro session here fails
      obtain rfl := Option.some.inj (isSession.symm.trans here)
      rw [fails] at stopped
      cases stopped
  | stopped live =>
    refine (known_live ?_).trans ?_
    · exact live
    · rw [owned_killed_iff sound rfl rfl ((known_live live).mp known)]
      simp only [Ending,live,Bool.false_eq_true,false_or]
  | panicked live unknown =>
    refine iff_of_true known (.inr ?_)
    intro here
    rw [unknown] at here
    cases here
  | deleted live isConnection =>
    refine (known_live ?_).trans ?_
    · exact live
    · simp only [Ending,live,Bool.false_eq_true,false_or,isConnection,Option.isSome_some,forall_const]
      rw [kernelDelete_known isConnection]
      exact owned_killed_iff sound (by simp) (by simp) ((known_live live).mp known) _ _
  | refused live => exact iff_of_true known trivial
  | connected live => exact iff_of_true known trivial
  | closed live => exact iff_of_true known trivial

theorem sound_setUp : Sound setUp := ⟨by simp [setUp],by simp [setUp],by simp [setUp]⟩

end

/-- Whenever in a run the server is shut down, with every running process to be killed at
    the first try, no kernel is left running, if and only if every step that takes a kernel
    from the registry ends it, and none ends the server while kernels run. -/
theorem none_outlives_iff (mac : List UInt8 → List UInt8 → List UInt8) (events : List Event) :
    Always (step mac) NoneOutlives setUp events ↔ Meets (step mac) Ending setUp events := by
  apply @always_iff_meets _ _ _ _ _ (fun s => Sound s ∧ Known s)
  · rintro s ⟨sound,known⟩
    exact (noneOutlives_iff_known sound).mpr known
  · rintro s e ⟨sound,known⟩ ending
    exact ⟨change_sound (step_change s e) sound,(change_known_iff (step_change s e) sound known).mpr ending⟩
  · rintro s e ⟨sound,known⟩ none
    have after := change_sound (@step_change mac s e) sound
    exact (change_known_iff (step_change s e) sound known).mp ((noneOutlives_iff_known after).mp none)
  · refine ⟨sound_setUp,?_⟩
    simp [Known,setUp]

end Zasper.Shutdown
