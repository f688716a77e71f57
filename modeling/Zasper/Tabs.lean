import Zasper.JsObjects

/-!
# Tabs

The dictionary of the open tabs and what opening, switching and closing a tab does to
it. The content panel shows the tabs in the order of `Object.keys`, and keeps the
component at an index as long as the tab there wants a component of the same kind:
`InPlace` says that no editor is handed from one tab to another.
-/
namespace Zasper.Tabs
open Zasper.JsObjects Zasper.JsObjects.JsObject
set_option linter.unusedSimpArgs false

structure IfileTab where
  type : String
  path : String
  name : String
  active : Bool
  extension : Option String
  loadRequired : Bool
  kernelspec : String
deriving DecidableEq

def defaultFileTabState : JsObject IfileTab :=
  JsObject.empty.add "Launcher" ⟨"launcher","Launcher","Launcher",true,some "txt",false,"none"⟩

/-- What follows the last point of a name. -/
def getFileExtension (filename : String) : Option String :=
  let parts := filename.toList.splitOn '.'
  if 1 < parts.length then
    match parts.getLast? with
    | some (c :: cs) => some (String.ofList (c :: cs))
    | _ => none
  else none

/-- The methods that an object literal inherits. A path that names one is taken for an
    open tab. -/
def inheritedMethods : List String :=
  ["constructor","toString","valueOf","hasOwnProperty","isPrototypeOf","propertyIsEnumerable","toLocaleString",
    "__defineGetter__","__defineSetter__","__lookupGetter__","__lookupSetter__"]

def newTab (name path type kernelspec : String) : IfileTab :=
  ⟨type,path,name,true,getFileExtension name,true,kernelspec⟩

/-- A path that gets a tab of its own when it is opened. -/
def Opens (tabs : JsObject IfileTab) (path : String) : Prop :=
  tabs.has path = false ∧ path ≠ "__proto__" ∧ path ∉ inheritedMethods

instance (tabs : JsObject IfileTab) (path : String) : Decidable (Opens tabs path) :=
  inferInstanceAs (Decidable (_ ∧ _))

/-- The tabs once a tab is opened, or brought to the front. For an inherited method the
    tab that is built has no name, and the page cannot be drawn. -/
def handleTabActivate (tabs : JsObject IfileTab) (name path type kernelspec : String) : Option (JsObject IfileTab) :=
  let updatedFileTabs := tabs.mapValues (fun _ tab => { tab with active := false, loadRequired := false })
  if updatedFileTabs.has path then some (updatedFileTabs.modify path (fun tab => { tab with active := true }))
  -- this assignment sets the prototype of the object
  else if path = "__proto__" then some updatedFileTabs
  else if path ∈ inheritedMethods then none
  else some (updatedFileTabs.add path (newTab name path type kernelspec))

/-- The tabs once the tab under the key is closed, and the kernel to be killed with it.
    A notebook whose kernel is not known is not closed. -/
def handleTabClose (notebookKernelMap : JsObject String) (tabs : JsObject IfileTab) (key : String) :
    Option (JsObject IfileTab × Option String) :=
  let closed := ((tabs.modify "Launcher" (fun tab => { tab with active := true })).mapValues
    (fun _ tab => { tab with loadRequired := false })).delete key
  match tabs.get? key with
  | none => none
  | some tab =>
    if tab.type = "notebook" then (notebookKernelMap.get? key).map (fun kernelId => (closed,some kernelId))
    else some (closed,none)

/-! ## The component of a tab -/

inductive Kind where
  | launcher
  | imageEditor
  | fileEditor
  | notebookEditor
  | terminalTab
  | fragment
deriving DecidableEq

/-- The component that shows a tab. -/
def Editor (tab : IfileTab) : Kind :=
  if tab.type = "launcher" then .launcher
  else if tab.type = "file" then if tab.extension = some "png" then .imageEditor else .fileEditor
  else if tab.type = "notebook" then .notebookEditor
  else if tab.type = "terminal" then .terminalTab
  else .fragment

/-- The component that shows the tab `a` is an editor and would be kept for the tab `b`. -/
def TakesOver (a b : IfileTab) : Prop :=
  Editor a = Editor b ∧ (Editor a = .fileEditor ∨ Editor a = .notebookEditor)

instance (a b : IfileTab) : Decidable (TakesOver a b) := inferInstanceAs (Decidable (_ ∧ _))

/-- No two neighbours share a kind of editor. -/
def Apart (tabs : List IfileTab) : Prop := tabs.IsChain (fun a b => ¬ TakesOver a b)

instance (tabs : List IfileTab) : Decidable (Apart tabs) := inferInstanceAs (Decidable (tabs.IsChain _))

/-- Where the new tabs `bs` stand in the place of the tabs `as`, no editor is handed to
    a tab with another path. -/
def InPlace : (as bs : List IfileTab) → Prop
  | a :: as, b :: bs => (TakesOver a b → b.path = a.path) ∧ InPlace as bs
  | _, _ => True

instance decidableInPlace : (as bs : List IfileTab) → Decidable (InPlace as bs)
  | [], _ => isTrue trivial
  | _ :: _, [] => isTrue trivial
  | a :: as, b :: bs =>
    have := decidableInPlace as bs
    inferInstanceAs (Decidable ((TakesOver a b → b.path = a.path) ∧ InPlace as bs))

/-- What of a tab decides which pane it gets. -/
def shape (tab : IfileTab) : String × Kind := (tab.path,Editor tab)

theorem TakesOver.symm {a b : IfileTab} (takes : TakesOver a b) : TakesOver b a := ⟨takes.1.symm,takes.1 ▸ takes.2⟩

theorem takesOver_shape {a b c : IfileTab} (same : shape b = shape c) : TakesOver a b ↔ TakesOver a c := by
  simp only [TakesOver,(Prod.mk.inj same).2]

theorem apart_shape {a b : IfileTab} (same : shape a = shape b) {tabs : List IfileTab} (apart : Apart (a :: tabs)) :
    Apart (b :: tabs) := by
  cases tabs with
  | nil => exact List.IsChain.singleton b
  | cons c tabs =>
    obtain ⟨first,tail⟩ := List.isChain_cons_cons.mp apart
    refine List.isChain_cons_cons.mpr ⟨fun takes => first ?_,tail⟩
    exact ((takesOver_shape same).mpr takes.symm).symm

/-- Tabs that stay where they are do not matter. -/
theorem inPlace_append {as bs cs ds : List IfileTab} (same : as.map shape = bs.map shape) (rest : InPlace cs ds) :
    InPlace (as ++ cs) (bs ++ ds) := by
  induction as generalizing bs with
  | nil =>
    obtain rfl := List.map_eq_nil_iff.mp same.symm
    exact rest
  | cons a as ih =>
    cases bs with
    | nil => simp at same
    | cons b bs =>
      obtain ⟨here,later⟩ := List.cons.inj same
      exact ⟨fun _ => (Prod.mk.inj here).1.symm,ih later⟩

theorem inPlace_same {as bs : List IfileTab} (same : as.map shape = bs.map shape) : InPlace as bs := by
  have whole := @inPlace_append as bs [] [] same trivial
  rwa [List.append_nil,List.append_nil] at whole

/-- Where the new tabs count only with their shape. -/
theorem inPlace_shape {as bs cs : List IfileTab} (place : InPlace as bs) (same : bs.map shape = cs.map shape) :
    InPlace as cs := by
  induction as generalizing bs cs with
  | nil => trivial
  | cons a as ih =>
    cases cs with
    | nil => trivial
    | cons c cs =>
      cases bs with
      | nil => simp at same
      | cons b bs =>
        obtain ⟨here,later⟩ := List.cons.inj same
        refine ⟨fun takes => ?_,ih place.2 later⟩
        rw [← (Prod.mk.inj here).1]
        exact place.1 ((takesOver_shape here).mpr takes)

/-- A tab is put before others. -/
theorem inPlace_put {as bs : List IfileTab} (same : as.map shape = bs.map shape) {x : IfileTab}
    (apart : Apart (x :: as)) : InPlace as (x :: bs) := by
  induction as generalizing bs x with
  | nil => trivial
  | cons a as ih =>
    cases bs with
    | nil => simp at same
    | cons b bs =>
      obtain ⟨here,later⟩ := List.cons.inj same
      obtain ⟨first,tail⟩ := List.isChain_cons_cons.mp apart
      exact ⟨fun takes => absurd takes.symm first,ih later (apart_shape here tail)⟩

/-- A tab is taken away before others. -/
theorem inPlace_take {as bs : List IfileTab} (same : as.map shape = bs.map shape) {x : IfileTab}
    (apart : Apart (x :: as)) : InPlace (x :: as) bs := by
  induction as generalizing bs x with
  | nil =>
    obtain rfl := List.map_eq_nil_iff.mp same.symm
    trivial
  | cons a as ih =>
    cases bs with
    | nil => trivial
    | cons b bs =>
      obtain ⟨here,later⟩ := List.cons.inj same
      obtain ⟨first,tail⟩ := List.isChain_cons_cons.mp apart
      exact ⟨fun takes => absurd ((takesOver_shape here).mpr takes) first,ih later tail⟩

/-! ## Opening and closing -/

/-- The tabs that are to be shown once a tab is opened, or brought to the front. -/
def opening (tabs : JsObject IfileTab) (name path type kernelspec : String) : List IfileTab :=
  if Opens tabs path then
    (before path tabs.entries).map (·.2) ++
      newTab name path type kernelspec :: (after path tabs.entries).map (·.2)
  else tabs.values

/-- Every tab stands under its own path. -/
def Named (tabs : JsObject IfileTab) : Prop := ∀ e ∈ tabs.entries, e.2.path = e.1

/-- A change of the tabs that leaves each its shape, and asks for no content. -/
def Quiet (f : String → IfileTab → IfileTab) : Prop :=
  ∀ key tab, shape (f key tab) = shape tab ∧ (f key tab).loadRequired = false

theorem Quiet.named {f : String → IfileTab → IfileTab} (quiet : Quiet f) {entries : List (String × IfileTab)}
    (named : ∀ e ∈ entries, e.2.path = e.1) : ∀ e ∈ entries.map (fun e => (e.1,f e.1 e.2)), e.2.path = e.1 := by
  intro e member
  obtain ⟨x,old,rfl⟩ := List.mem_map.mp member
  exact (Prod.mk.inj (quiet x.1 x.2).1).1.trans (named x old)

theorem Quiet.shapes {f : String → IfileTab → IfileTab} (quiet : Quiet f) (entries : List (String × IfileTab)) :
    (entries.map (·.2)).map shape = ((entries.map (fun e => (e.1,f e.1 e.2))).map (·.2)).map shape := by
  simp only [List.map_map]
  exact List.map_congr_left (fun e _ => (quiet e.1 e.2).1.symm)

theorem Quiet.rests {f : String → IfileTab → IfileTab} (quiet : Quiet f) (entries : List (String × IfileTab)) :
    ∀ tab ∈ (entries.map (fun e => (e.1,f e.1 e.2))).map (·.2), tab.loadRequired = false := by
  intro tab member
  simp only [List.map_map,List.mem_map] at member
  obtain ⟨e,-,rfl⟩ := member
  exact (quiet e.1 e.2).2

theorem Quiet.modify {f : String → IfileTab → IfileTab} (quiet : Quiet f) {g : IfileTab → IfileTab}
    (keeps : ∀ tab, shape (g tab) = shape tab ∧ (g tab).loadRequired = tab.loadRequired) (key : String) :
    ∃ h, Quiet h ∧ ∀ tabs : JsObject IfileTab, (tabs.mapValues f).modify key g = tabs.mapValues h := by
  refine ⟨fun k tab => if k = key then g (f k tab) else f k tab,?_,fun tabs => ?_⟩
  · intro k tab
    obtain ⟨shaped,rested⟩ := quiet k tab
    dsimp only
    split_ifs
    · exact ⟨(keeps _).1.trans shaped,(keeps _).2.trans rested⟩
    · exact ⟨shaped,rested⟩
  · rw [JsObject.modify,mapValues_mapValues]

theorem handleTabActivate_cases {tabs updated : JsObject IfileTab} {name path type kernelspec : String}
    (done : handleTabActivate tabs name path type kernelspec = some updated) :
    ∃ f, Quiet f ∧
      ((Opens tabs path ∧ updated = (tabs.mapValues f).add path (newTab name path type kernelspec)) ∨
        (¬ Opens tabs path ∧ updated = tabs.mapValues f)) := by
  unfold handleTabActivate at done
  simp only [has_mapValues] at done
  have rest : Quiet (fun _ tab => { tab with active := false, loadRequired := false }) := fun _ _ => ⟨rfl,rfl⟩
  split_ifs at done with present prototype inherited
  · obtain ⟨f,quiet,same⟩ := rest.modify (g := fun tab => { tab with active := true }) (fun _ => ⟨rfl,rfl⟩) path
    refine ⟨f,quiet,.inr ⟨fun opens => by simp [opens.1] at present,?_⟩⟩
    rw [← same,Option.some.inj done]
  · exact ⟨_,rest,.inr ⟨fun opens => opens.2.1 prototype,(Option.some.inj done).symm⟩⟩
  · exact ⟨_,rest,.inl ⟨⟨by simpa using present,prototype,inherited⟩,(Option.some.inj done).symm⟩⟩

theorem handleTabClose_some {notebookKernelMap : JsObject String} {tabs updated : JsObject IfileTab} {key : String}
    {kernelId : Option String} (done : handleTabClose notebookKernelMap tabs key = some (updated,kernelId)) :
    ∃ tab, tabs.get? key = some tab ∧ (tab.type = "notebook" → (notebookKernelMap.get? key).isSome) ∧
      updated = ((tabs.modify "Launcher" (fun tab => { tab with active := true })).mapValues
        (fun _ tab => { tab with loadRequired := false })).delete key := by
  rw [handleTabClose] at done
  cases found : tabs.get? key with
  | none => simp [found] at done
  | some tab =>
    simp only [found] at done
    refine ⟨tab,rfl,?_⟩
    split_ifs at done with notebook
    · obtain ⟨id,known,same⟩ := Option.map_eq_some_iff.mp done
      exact ⟨fun _ => by simp [known],(Prod.mk.inj same).1.symm⟩
    · exact ⟨fun h => absurd h notebook,(Prod.mk.inj (Option.some.inj done)).1.symm⟩

theorem handleTabClose_eq {notebookKernelMap : JsObject String} {tabs updated : JsObject IfileTab} {key : String}
    {kernelId : Option String} (done : handleTabClose notebookKernelMap tabs key = some (updated,kernelId)) :
    ∃ f tab, Quiet f ∧ updated = (tabs.mapValues f).delete key ∧ tabs.get? key = some tab ∧
      (tab.type = "notebook" → (notebookKernelMap.get? key).isSome) := by
  obtain ⟨tab,found,known,rfl⟩ := handleTabClose_some done
  obtain ⟨f,quiet,same⟩ : ∃ f, Quiet f ∧ (tabs.modify "Launcher" (fun tab => { tab with active := true })).mapValues
      (fun _ tab => { tab with loadRequired := false }) = tabs.mapValues f := by
    refine ⟨_,?_,mapValues_mapValues tabs _ _⟩
    intro k tab
    dsimp only
    split_ifs <;> exact ⟨rfl,rfl⟩
  exact ⟨f,tab,quiet,by rw [same],found,known⟩

theorem handleTabClose_cases {notebookKernelMap : JsObject String} {tabs updated : JsObject IfileTab} {key : String}
    {kernelId : Option String} (done : handleTabClose notebookKernelMap tabs key = some (updated,kernelId)) :
    ∃ f tab front back, Quiet f ∧ tabs.get? key = some tab ∧
      (tab.type = "notebook" → (notebookKernelMap.get? key).isSome) ∧
      tabs.entries = front ++ (key,tab) :: back ∧ tabs.fromKey key = (key,tab) :: back ∧
      updated.entries = (front ++ back).map (fun e => (e.1,f e.1 e.2)) := by
  obtain ⟨f,tab,quiet,rfl,found,known⟩ := handleTabClose_eq done
  obtain ⟨front,back,split,stands⟩ := get?_split found
  refine ⟨f,tab,front,back,quiet,found,known,split,stands,?_⟩
  rw [List.map_append]
  exact delete_split (by rw [mapValues_entries,split,List.map_append,List.map_cons])

section
variable {tabs updated : JsObject IfileTab} {name path type kernelspec : String}

theorem activated_entries (done : handleTabActivate tabs name path type kernelspec = some updated)
    (opens : Opens tabs path) :
    ∃ f, Quiet f ∧ updated.entries = (before path tabs.entries).map (fun e => (e.1,f e.1 e.2)) ++
      (path,newTab name path type kernelspec) :: (after path tabs.entries).map (fun e => (e.1,f e.1 e.2)) := by
  obtain ⟨f,quiet,⟨-,rfl⟩ | ⟨not,-⟩⟩ := handleTabActivate_cases done
  · refine ⟨f,quiet,?_⟩
    rw [add_entries (by simpa using opens.1),mapValues_entries,before_mapValues,after_mapValues]
  · exact absurd opens not

theorem activated_named (named : Named tabs) (done : handleTabActivate tabs name path type kernelspec = some updated) :
    Named updated := by
  by_cases opens : Opens tabs path
  · obtain ⟨f,quiet,entries⟩ := activated_entries done opens
    have old : ∀ e ∈ before path tabs.entries ++ after path tabs.entries, e.2.path = e.1 := by
      rw [before_append_after]
      exact named
    have front := quiet.named (fun e member => old e (List.mem_append_left _ member))
    have back := quiet.named (fun e member => old e (List.mem_append_right _ member))
    intro e member
    rw [entries] at member
    rcases List.mem_append.mp member with member | member
    · exact front e member
    · rcases List.mem_cons.mp member with rfl | member
      · rfl
      · exact back e member
  · obtain ⟨f,quiet,⟨opens',-⟩ | ⟨-,rfl⟩⟩ := handleTabActivate_cases done
    · exact absurd opens' opens
    · exact quiet.named named

/-- Only the tab that was opened asks for its content. -/
theorem activated_loads (done : handleTabActivate tabs name path type kernelspec = some updated) {tab : IfileTab}
    (member : tab ∈ updated.values) (loads : tab.loadRequired = true) :
    Opens tabs path ∧ tab = newTab name path type kernelspec := by
  by_cases opens : Opens tabs path
  · obtain ⟨f,quiet,entries⟩ := activated_entries done opens
    rw [values,entries,List.map_append,List.map_cons] at member
    rcases List.mem_append.mp member with member | member
    · simp [quiet.rests _ tab member] at loads
    · rcases List.mem_cons.mp member with rfl | member
      · exact ⟨opens,rfl⟩
      · simp [quiet.rests _ tab member] at loads
  · obtain ⟨f,quiet,⟨opens',-⟩ | ⟨-,rfl⟩⟩ := handleTabActivate_cases done
    · exact absurd opens' opens
    · simp [quiet.rests _ tab member] at loads

theorem activated_others (done : handleTabActivate tabs name path type kernelspec = some updated) (named : Named tabs)
    (opens : Opens tabs path) {tab : IfileTab} (member : tab ∈ updated.values) (rests : tab.loadRequired = false) :
    tab.path ≠ path := by
  obtain ⟨e,there,rfl⟩ := List.mem_map.mp member
  intro same
  obtain ⟨f,-,entries⟩ := activated_entries done opens
  have new : (path,newTab name path type kernelspec) ∈ updated.entries := by simp [entries]
  have one := entries_functional there new ((activated_named named done e there).symm.trans same)
  rw [one] at rests
  cases rests

/-- An open tab stays open, and of its kind. -/
theorem activated_stays (done : handleTabActivate tabs name path type kernelspec = some updated) {key : String}
    {tab : IfileTab} (found : tabs.get? key = some tab) : ∃ kept, updated.get? key = some kept ∧ shape kept = shape tab := by
  obtain ⟨f,quiet,⟨opens,rfl⟩ | ⟨-,rfl⟩⟩ := handleTabActivate_cases done
  · refine ⟨f key tab,?_,(quiet key tab).1⟩
    have new : (tabs.mapValues f).has path = false := by simpa using opens.1
    have there : (key,f key tab) ∈ (tabs.mapValues f).entries := get?_eq_some.mp (by rw [get?_mapValues,found]; rfl)
    rw [← before_append_after path (tabs.mapValues f).entries] at there
    rw [get?_eq_some,add_entries new]
    exact ((List.sublist_cons_self _ _).append_left _).subset there
  · exact ⟨f key tab,by rw [get?_mapValues,found]; rfl,(quiet key tab).1⟩

theorem activated_shapes (done : handleTabActivate tabs name path type kernelspec = some updated) :
    (opening tabs name path type kernelspec).map shape = updated.values.map shape := by
  unfold opening
  split_ifs with opens
  · obtain ⟨f,quiet,entries⟩ := activated_entries done opens
    rw [values,entries,List.map_append,List.map_append,List.map_append,List.map_cons,List.map_cons,List.map_cons]
    rw [quiet.shapes (before path tabs.entries),quiet.shapes (after path tabs.entries)]
  · obtain ⟨f,quiet,⟨opens',-⟩ | ⟨-,rfl⟩⟩ := handleTabActivate_cases done
    · exact absurd opens' opens
    · exact quiet.shapes _

/-- A tab opens in place where it and those it goes before are apart. -/
theorem opening_inPlace
    (apart : Opens tabs path → Apart (newTab name path type kernelspec :: (after path tabs.entries).map (·.2))) :
    InPlace tabs.values (opening tabs name path type kernelspec) := by
  unfold opening
  split_ifs with opens
  · have split : tabs.values = (before path tabs.entries).map (·.2) ++ (after path tabs.entries).map (·.2) := by
      rw [← List.map_append,before_append_after,values]
    rw [split]
    exact inPlace_append rfl (inPlace_put rfl (apart opens))
  · exact inPlace_same rfl

variable {notebookKernelMap : JsObject String} {key : String} {kernelId : Option String}

theorem closed_named (named : Named tabs) (done : handleTabClose notebookKernelMap tabs key = some (updated,kernelId)) :
    Named updated := by
  obtain ⟨f,tab,front,back,quiet,-,-,split,-,entries⟩ := handleTabClose_cases done
  rw [Named,entries]
  refine quiet.named (fun e member => named e ?_)
  rw [split]
  exact ((List.sublist_cons_self _ _).append_left front).subset member

theorem closed_loads (done : handleTabClose notebookKernelMap tabs key = some (updated,kernelId)) {tab : IfileTab}
    (member : tab ∈ updated.values) : tab.loadRequired = false := by
  obtain ⟨f,_,front,back,quiet,-,-,-,-,entries⟩ := handleTabClose_cases done
  rw [values,entries] at member
  exact quiet.rests _ tab member

/-- The other tabs stay open, and of their kind. -/
theorem closed_stays (done : handleTabClose notebookKernelMap tabs key = some (updated,kernelId)) {other : String}
    (different : other ≠ key) {tab : IfileTab} (found : tabs.get? other = some tab) :
    ∃ kept, updated.get? other = some kept ∧ shape kept = shape tab := by
  obtain ⟨f,-,quiet,rfl,-,-⟩ := handleTabClose_eq done
  refine ⟨f other tab,?_,(quiet other tab).1⟩
  rw [get?_delete,if_neg different,get?_mapValues,found]
  rfl

theorem closed_gone (done : handleTabClose notebookKernelMap tabs key = some (updated,kernelId)) : updated.get? key = none := by
  obtain ⟨f,-,-,rfl,-,-⟩ := handleTabClose_eq done
  rw [get?_delete,if_pos rfl]

/-- A tab closes in place where it and those behind it are apart. -/
theorem closed_inPlace (done : handleTabClose notebookKernelMap tabs key = some (updated,kernelId))
    (apart : ∀ tab, tabs.get? key = some tab → (tab.type = "notebook" → (notebookKernelMap.get? key).isSome) →
      Apart ((tabs.fromKey key).map (·.2))) : InPlace tabs.values updated.values := by
  obtain ⟨f,tab,front,back,quiet,found,known,split,stands,entries⟩ := handleTabClose_cases done
  have behind := apart tab found known
  rw [stands] at behind
  rw [values,values,split,entries,List.map_append,List.map_append,List.map_append]
  exact inPlace_append (quiet.shapes _) (inPlace_take (quiet.shapes _) behind)

end
end Zasper.Tabs
