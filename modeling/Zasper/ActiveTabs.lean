import Zasper.Runs
import Zasper.Tabs

/-!
# The active tab

The tab bar under any sequence of opening, switching and closing tabs. Opening or
switching takes the mark from every tab and gives it to one; closing a tab gives it to
the launcher and takes it from none, so that there are two active tabs when neither of
these was: `oneActive_iff`.
-/
namespace Zasper.ActiveTabs
open Zasper.JsObjects Zasper.JsObjects.JsObject Zasper.Tabs Zasper.Runs
set_option linter.unusedSimpArgs false

structure TabBar where
  /-- The page could not be drawn, and is gone. -/
  crashed : Bool
  fileTabsState : JsObject IfileTab

inductive Event where
  /-- A tab, a file, an entry of the launcher or a hit of the search is clicked. -/
  | activate (name path type kernelspec : String)
  /-- The button of a tab is clicked, the kernels of the notebooks being those of the map. -/
  | close (key : String) (notebookKernelMap : JsObject String)

/-- Tabs with the name `Launcher` have no button to close them. -/
def Closable (tabs : JsObject IfileTab) (key : String) (tab : IfileTab) : Prop :=
  tabs.get? key = some tab ∧ tab.name ≠ "Launcher"

def handle (bar : TabBar) : Event → TabBar
  | .activate name path type kernelspec =>
    match handleTabActivate bar.fileTabsState name path type kernelspec with
    | none => { bar with crashed := true }
    | some tabs => { bar with fileTabsState := tabs }
  | .close key notebookKernelMap =>
    match bar.fileTabsState.get? key with
    | none => bar
    | some tab =>
      if tab.name ≠ "Launcher" then
        match handleTabClose notebookKernelMap bar.fileTabsState key with
        | none => bar
        | some (tabs,_) => { bar with fileTabsState := tabs }
      else bar

def step (bar : TabBar) (e : Event) : TabBar × Unit := (if bar.crashed then bar else handle bar e,())

def start : TabBar := ⟨false,defaultFileTabState⟩

/-- Exactly one entry is active. -/
def OneActive (bar : TabBar) : Prop := ∃! e, e ∈ bar.fileTabsState.entries ∧ e.2.active = true

/-- The tab under the key is active. -/
def Active (tabs : JsObject IfileTab) (key : String) : Prop := ∃ tab, tabs.get? key = some tab ∧ tab.active = true

/-- No prototype is opened; and a tab that is closed is active, or the launcher is. -/
def Careful (bar : TabBar) (e : Event) : Prop :=
  bar.crashed = true ∨
  match e with
  | .activate _ path _ _ => path ≠ "__proto__"
  | .close key notebookKernelMap => ∀ tab, Closable bar.fileTabsState key tab →
    (tab.type = "notebook" → (notebookKernelMap.get? key).isSome) →
    Active bar.fileTabsState key ∨ Active bar.fileTabsState "Launcher"

/-! ## The active keys -/

theorem oneActive_iff_key (bar : TabBar) : OneActive bar ↔ ∃! key, Active bar.fileTabsState key := by
  constructor
  · rintro ⟨e,⟨member,active⟩,only⟩
    refine ⟨e.1,⟨e.2,get?_eq_some.mpr member,active⟩,?_⟩
    rintro key ⟨tab,found,active⟩
    exact congrArg Prod.fst (only (key,tab) ⟨get?_eq_some.mp found,active⟩)
  · rintro ⟨key,⟨tab,found,active⟩,only⟩
    refine ⟨(key,tab),⟨get?_eq_some.mp found,active⟩,?_⟩
    rintro ⟨other,item⟩ ⟨member,active⟩
    have there := get?_eq_some.mpr member
    obtain rfl := only other ⟨item,there,active⟩
    rw [found] at there
    rw [Option.some.inj there]

structure Inv (bar : TabBar) : Prop where
  one : OneActive bar
  launcher : ∃ tab, bar.fileTabsState.get? "Launcher" = some tab ∧ tab.name = "Launcher"
  noPrototype : bar.fileTabsState.get? "__proto__" = none

section
variable {tabs updated : JsObject IfileTab}

/-- The tab that is opened, or brought to the front, is the only one that is active. -/
theorem activated_active {name path type kernelspec : String} (allowed : path ≠ "__proto__")
    (done : handleTabActivate tabs name path type kernelspec = some updated) (key : String) :
    Active updated key ↔ key = path := by
  unfold handleTabActivate at done
  simp only [has_mapValues] at done
  split_ifs at done with present inherited
  · obtain rfl := Option.some.inj done
    obtain ⟨tab,found⟩ : ∃ tab, tabs.get? path = some tab := by
      apply Option.ne_none_iff_exists'.mp
      intro missing
      rw [get?_eq_none.mp missing] at present
      cases present
    simp only [Active,get?_modify,get?_mapValues]
    by_cases here : key = path
    · simp [here,found]
    · simp [here]
  · obtain rfl := Option.some.inj done
    have new : (tabs.mapValues (fun _ tab => { tab with active := false, loadRequired := false })).has path = false := by
      simpa using present
    simp only [Active,get?_add new,get?_mapValues]
    by_cases here : key = path
    · simp [here,newTab]
    · simp [here]

theorem activated_name {name path type kernelspec : String}
    (done : handleTabActivate tabs name path type kernelspec = some updated) {key : String} {tab : IfileTab}
    (found : tabs.get? key = some tab) : ∃ kept, updated.get? key = some kept ∧ kept.name = tab.name := by
  unfold handleTabActivate at done
  simp only [has_mapValues] at done
  split_ifs at done with present prototype inherited
  · obtain rfl := Option.some.inj done
    rw [get?_modify,get?_mapValues,found]
    refine ⟨_,rfl,?_⟩
    split_ifs <;> rfl
  · obtain rfl := Option.some.inj done
    rw [get?_mapValues,found]
    exact ⟨_,rfl,rfl⟩
  · obtain rfl := Option.some.inj done
    have different : key ≠ path := by
      rintro rfl
      rw [get?_eq_none.mpr (by simpa using present)] at found
      cases found
    rw [get?_add (by simpa using present),if_neg different,get?_mapValues,found]
    exact ⟨_,rfl,rfl⟩

/-- An own property with the name of the prototype is never added. -/
theorem activated_noPrototype {name path type kernelspec : String}
    (done : handleTabActivate tabs name path type kernelspec = some updated)
    (noPrototype : tabs.get? "__proto__" = none) : updated.get? "__proto__" = none := by
  unfold handleTabActivate at done
  simp only [has_mapValues] at done
  split_ifs at done with present prototype inherited
  · obtain rfl := Option.some.inj done
    rw [get?_modify,get?_mapValues,noPrototype]
    rfl
  · obtain rfl := Option.some.inj done
    rw [get?_mapValues,noPrototype]
    rfl
  · obtain rfl := Option.some.inj done
    rw [get?_add (by simpa using present),if_neg (Ne.symm prototype),get?_mapValues,noPrototype]
    rfl

/-- The prototype leaves no tab active. -/
theorem prototype_active {name type kernelspec : String}
    (done : handleTabActivate tabs name "__proto__" type kernelspec = some updated)
    (noPrototype : tabs.get? "__proto__" = none) (key : String) : ¬ Active updated key := by
  have absent : tabs.has "__proto__" = false := get?_eq_none.mp noPrototype
  simp only [handleTabActivate,has_mapValues,absent,Bool.false_eq_true,↓reduceIte,Option.some.injEq] at done
  subst done
  rintro ⟨tab,found,active⟩
  rw [get?_mapValues] at found
  obtain ⟨old,-,rfl⟩ := Option.map_eq_some_iff.mp found
  cases active

variable {notebookKernelMap : JsObject String} {key : String} {kernelId : Option String}

/-- Closing a tab makes the launcher active, and no other tab inactive. -/
theorem closed_active (done : handleTabClose notebookKernelMap tabs key = some (updated,kernelId))
    (launcher : ∃ tab, tabs.get? "Launcher" = some tab) (other : String) :
    Active updated other ↔ other ≠ key ∧ (other = "Launcher" ∨ Active tabs other) := by
  obtain ⟨-,-,-,rfl⟩ := handleTabClose_some done
  obtain ⟨tab,found⟩ := launcher
  simp only [Active,get?_delete,get?_mapValues,get?_modify]
  by_cases gone : other = key
  · simp [gone]
  · by_cases here : other = "Launcher"
    · simp [gone,here,here ▸ gone,found]
    · simp [gone,here]

theorem closed_get? (done : handleTabClose notebookKernelMap tabs key = some (updated,kernelId)) {other : String}
    (different : other ≠ key) {tab : IfileTab} (found : tabs.get? other = some tab) :
    ∃ kept, updated.get? other = some kept ∧ kept.name = tab.name := by
  obtain ⟨-,-,-,rfl⟩ := handleTabClose_some done
  rw [get?_delete,if_neg different,get?_mapValues,get?_modify,found]
  refine ⟨_,rfl,?_⟩
  dsimp only
  split_ifs <;> rfl

theorem closed_noPrototype (done : handleTabClose notebookKernelMap tabs key = some (updated,kernelId))
    (noPrototype : tabs.get? "__proto__" = none) : updated.get? "__proto__" = none := by
  obtain ⟨-,-,-,rfl⟩ := handleTabClose_some done
  rw [get?_delete,get?_mapValues,get?_modify,noPrototype]
  simp

/-- A tab with a button is closed where the kernel of a notebook is known. -/
theorem exists_closed {tab : IfileTab} (found : tabs.get? key = some tab)
    (known : tab.type = "notebook" → (notebookKernelMap.get? key).isSome) :
    ∃ closed, handleTabClose notebookKernelMap tabs key = some closed := by
  simp only [handleTabClose,found]
  split_ifs with notebook
  · obtain ⟨id,here⟩ := Option.isSome_iff_exists.mp (known notebook)
    exact ⟨_,by rw [here]; rfl⟩
  · exact ⟨_,rfl⟩

end

/-! ## Runs -/

theorem activate_keeps {bar : TabBar} (inv : Inv bar) {name path type kernelspec : String} {updated : JsObject IfileTab}
    (allowed : path ≠ "__proto__") (done : handleTabActivate bar.fileTabsState name path type kernelspec = some updated) :
    Inv { bar with fileTabsState := updated } where
  one := by
    rw [oneActive_iff_key]
    refine ⟨path,(activated_active allowed done path).mpr rfl,?_⟩
    intro key active
    exact (activated_active allowed done key).mp active
  launcher := by
    obtain ⟨tab,found,name⟩ := inv.launcher
    obtain ⟨kept,there,same⟩ := activated_name done found
    exact ⟨kept,there,same.trans name⟩
  noPrototype := activated_noPrototype done inv.noPrototype

theorem close_keeps {bar : TabBar} (inv : Inv bar) {notebookKernelMap : JsObject String} {key : String}
    {updated : JsObject IfileTab} {kernelId : Option String} (other : key ≠ "Launcher")
    (done : handleTabClose notebookKernelMap bar.fileTabsState key = some (updated,kernelId))
    (active : Active bar.fileTabsState key ∨ Active bar.fileTabsState "Launcher") :
    Inv { bar with fileTabsState := updated } := by
  obtain ⟨launcher,found,name⟩ := inv.launcher
  refine ⟨?_,?_,closed_noPrototype done inv.noPrototype⟩
  · obtain ⟨front,isActive,only⟩ := (oneActive_iff_key bar).mp inv.one
    rw [oneActive_iff_key]
    refine ⟨"Launcher",(closed_active done ⟨launcher,found⟩ _).mpr ⟨other.symm,.inl rfl⟩,?_⟩
    intro k activeAfter
    obtain ⟨stays,here | before⟩ := (closed_active done ⟨launcher,found⟩ k).mp activeAfter
    · exact here
    · -- the only tab that was active is the closed one or the launcher
      rcases active with closed | front
      · exact absurd ((only k before).trans (only key closed).symm) stays
      · exact (only k before).trans (only _ front).symm
  · obtain ⟨kept,there,same⟩ := closed_get? done other.symm found
    exact ⟨kept,there,same.trans name⟩

theorem close_breaks {bar : TabBar} (inv : Inv bar) {notebookKernelMap : JsObject String} {key : String}
    {updated : JsObject IfileTab} {kernelId : Option String} (other : key ≠ "Launcher")
    (done : handleTabClose notebookKernelMap bar.fileTabsState key = some (updated,kernelId))
    (one : OneActive { bar with fileTabsState := updated }) :
    Active bar.fileTabsState key ∨ Active bar.fileTabsState "Launcher" := by
  obtain ⟨launcher,found,-⟩ := inv.launcher
  obtain ⟨front,active,-⟩ := (oneActive_iff_key bar).mp inv.one
  by_cases closed : front = key
  · exact .inl (closed ▸ active)
  · right
    obtain ⟨k,-,only⟩ := (oneActive_iff_key _).mp one
    have frontStays := only front ((closed_active done ⟨launcher,found⟩ front).mpr ⟨closed,.inr active⟩)
    have launcherActive := only _ ((closed_active done ⟨launcher,found⟩ "Launcher").mpr ⟨other.symm,.inl rfl⟩)
    rwa [← launcherActive.trans frontStays.symm] at active

/-- The launcher has no button. -/
theorem Inv.not_launcher {bar : TabBar} (inv : Inv bar) {key : String} {tab : IfileTab}
    (closable : Closable bar.fileTabsState key tab) : key ≠ "Launcher" := by
  rintro rfl
  obtain ⟨launcher,found,name⟩ := inv.launcher
  rw [closable.1] at found
  exact closable.2 (Option.some.inj found ▸ name)

theorem step_keeps (bar : TabBar) (e : Event) (inv : Inv bar) (careful : Careful bar e) : Inv (step bar e).1 := by
  unfold step
  by_cases gone : bar.crashed = true
  · rw [if_pos gone]
    exact inv
  · rw [if_neg gone]
    have careful := careful.resolve_left gone
    cases e with
    | activate name path type kernelspec =>
      dsimp only [handle]
      cases done : handleTabActivate bar.fileTabsState name path type kernelspec with
      | none => exact ⟨inv.one,inv.launcher,inv.noPrototype⟩
      | some updated => exact activate_keeps inv careful done
    | close key notebookKernelMap =>
      dsimp only [handle]
      cases found : bar.fileTabsState.get? key with
      | none => exact inv
      | some tab =>
        dsimp only
        split_ifs with button
        · cases done : handleTabClose notebookKernelMap bar.fileTabsState key with
          | none => exact inv
          | some closed =>
            obtain ⟨same,there,known,-⟩ := handleTabClose_some done
            obtain rfl := Option.some.inj (found.symm.trans there)
            exact close_keeps inv (inv.not_launcher ⟨found,button⟩) done (careful _ ⟨found,button⟩ known)
        · exact inv

theorem step_breaks (bar : TabBar) (e : Event) (inv : Inv bar) (one : OneActive (step bar e).1) : Careful bar e := by
  unfold step at one
  by_cases gone : bar.crashed = true
  · exact .inl gone
  · rw [if_neg gone] at one
    refine .inr ?_
    cases e with
    | activate name path type kernelspec =>
      rintro rfl
      cases done : handleTabActivate bar.fileTabsState name "__proto__" type kernelspec with
      | none =>
        have absent : bar.fileTabsState.has "__proto__" = false := get?_eq_none.mp inv.noPrototype
        simp [handleTabActivate,absent] at done
      | some updated =>
        simp only [handle,done] at one
        obtain ⟨key,active,-⟩ := (oneActive_iff_key _).mp one
        exact prototype_active done inv.noPrototype key active
    | close key notebookKernelMap =>
      intro tab closable known
      obtain ⟨closed,done⟩ := exists_closed closable.1 known
      simp only [handle,closable.1,if_pos closable.2,done] at one
      exact close_breaks inv (inv.not_launcher closable) done one

theorem inv_start : Inv start := by
  refine ⟨?_,⟨_,rfl,rfl⟩,rfl⟩
  refine ⟨_,⟨List.mem_singleton_self _,rfl⟩,?_⟩
  rintro e ⟨member,-⟩
  exact List.mem_singleton.mp member

/-- Exactly one tab is active at any time if and only if the prototype is never opened
    and every tab that is closed is active, or the launcher is. -/
theorem oneActive_iff (events : List Event) : Always step OneActive start events ↔ Meets step Careful start events :=
  always_iff_meets (fun _ inv => inv.one) step_keeps step_breaks inv_start events

/-- Two files are opened, and the tab of the first is closed: the second stays active. -/
theorem closedBehind_twoActive : ¬ OneActive (run step start
    [.activate "a.txt" "a.txt" "file" "none",.activate "b.txt" "b.txt" "file" "none",.close "a.txt" JsObject.empty]).1 := by
  rintro ⟨e,-,only⟩
  have launcher := only ("Launcher",⟨"launcher","Launcher","Launcher",true,some "txt",false,"none"⟩) (by decide +kernel)
  have second := only ("b.txt",⟨"file","b.txt","b.txt",true,some "txt",false,"none"⟩) (by decide +kernel)
  exact absurd (launcher.trans second.symm) (by decide)

end Zasper.ActiveTabs
