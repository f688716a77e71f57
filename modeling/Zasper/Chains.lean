import Mathlib.Algebra.Group.Nat.Defs
import Mathlib.Data.List.Nodup

/-!
# Chains

The depth-first walk of a graph that forgets where it has been: what is below a node is
walked once for every chain down to the node (`visits`, `chains`). A walk with a bounded
depth ends well just where no chain is longer (`chains_isSome_iff`), it visits what the
chains end with (`visits_eq`), and everything below a node once more after the node's
last visit (`visits_after`). Diamonds double it (`doubled`).
-/
namespace Zasper.Chains
set_option linter.unusedSimpArgs false
universe u v w

section
variable {Node : Type u} {Item : Type v}

/-- What is found at each of the nodes, one after the other. -/
def gather (f : Node → Option (List Item)) : List Node → Option (List Item)
  | [] => some []
  | node :: nodes => do
    let here ← f node
    let there ← gather f nodes
    some (here ++ there)

theorem gather_cons_eq_some {f : Node → Option (List Item)} {node : Node} {nodes : List Node} {items : List Item} :
    gather f (node :: nodes) = some items ↔
      ∃ here there, f node = some here ∧ gather f nodes = some there ∧ items = here ++ there := by
  simp only [gather,Option.bind_eq_bind,Option.bind_eq_some_iff,Option.some.injEq]
  constructor
  · rintro ⟨here,found,there,rest,rfl⟩
    exact ⟨here,there,found,rest,rfl⟩
  · rintro ⟨here,there,found,rest,rfl⟩
    exact ⟨here,found,there,rest,rfl⟩

theorem gather_map {Image : Type w} (f : Node → Option (List Item)) (g : Item → Image) (nodes : List Node) :
    gather (fun node => (f node).map (List.map g)) nodes = (gather f nodes).map (List.map g) := by
  induction nodes with
  | nil => rfl
  | cons node nodes ih =>
    simp only [gather,ih]
    cases f node <;> cases gather f nodes <;> simp

theorem gather_isSome_iff {f : Node → Option (List Item)} {nodes : List Node} :
    (gather f nodes).isSome ↔ ∀ node ∈ nodes, (f node).isSome := by
  induction nodes with
  | nil => simp [gather]
  | cons node nodes ih =>
    rw [List.forall_mem_cons,← ih]
    cases here : f node <;> cases there : gather f nodes <;> simp [gather,here,there]

theorem mem_gather_iff {f : Node → Option (List Item)} {nodes : List Node} {items : List Item}
    (found : gather f nodes = some items) {item : Item} :
    item ∈ items ↔ ∃ node ∈ nodes, ∃ part, f node = some part ∧ item ∈ part := by
  induction nodes generalizing items with
  | nil =>
    obtain rfl := Option.some.inj found
    simp
  | cons node nodes ih =>
    obtain ⟨here,there,first,rest,rfl⟩ := gather_cons_eq_some.mp found
    rw [List.mem_append,ih rest]
    simp [first]

/-- What stands at a place was found at one of the nodes, with all that was found at it. -/
theorem gather_split {f : Node → Option (List Item)} {nodes : List Node} {front back : List Item} {item : Item}
    (found : gather f nodes = some (front ++ item :: back)) :
    ∃ node ∈ nodes, ∃ before after, f node = some (before ++ item :: after) ∧ after <+: back := by
  induction nodes generalizing front with
  | nil => simp [gather] at found
  | cons node nodes ih =>
    obtain ⟨here,there,first,rest,split⟩ := gather_cons_eq_some.mp found
    rcases List.append_eq_append_iff.mp split with ⟨middle,whole,tail⟩ | ⟨middle,rfl,tail⟩
    · cases middle with
      | nil =>
        simp only [List.nil_append] at tail
        obtain ⟨other,member,before,after,part,inside⟩ := ih (show gather f nodes = some ([] ++ item :: back) by
          rw [rest,← tail,List.nil_append])
        exact ⟨other,List.mem_cons_of_mem _ member,before,after,part,inside⟩
      | cons head middle =>
        obtain ⟨rfl,later⟩ := List.cons.inj tail
        exact ⟨node,List.mem_cons_self,front,middle,by rw [first,whole],⟨there,later.symm⟩⟩
    · obtain ⟨other,member,before,after,part,inside⟩ := ih (show gather f nodes = some (middle ++ item :: back) by
        rw [rest,tail])
      exact ⟨other,List.mem_cons_of_mem _ member,before,after,part,inside⟩

theorem length_le_gather {f : Node → Option (List Item)} {nodes : List Node} {items : List Item}
    (found : gather f nodes = some items) {node : Node} (member : node ∈ nodes) :
    ∃ part, f node = some part ∧ part.length ≤ items.length := by
  induction nodes generalizing items with
  | nil => cases member
  | cons other nodes ih =>
    obtain ⟨here,there,first,rest,rfl⟩ := gather_cons_eq_some.mp found
    rcases List.mem_cons.mp member with rfl | member
    · exact ⟨here,first,by simp⟩
    · obtain ⟨part,own,short⟩ := ih rest member
      exact ⟨part,own,by rw [List.length_append]; omega⟩

/-- Two nodes are both gathered. -/
theorem length_add_le_gather {f : Node → Option (List Item)} {nodes : List Node} {items : List Item}
    (found : gather f nodes = some items) {left right : Node} (other : left ≠ right) (first : left ∈ nodes)
    (second : right ∈ nodes) : ∃ one two, f left = some one ∧ f right = some two ∧
      one.length + two.length ≤ items.length := by
  induction nodes generalizing items with
  | nil => cases first
  | cons node nodes ih =>
    obtain ⟨here,there,own,rest,rfl⟩ := gather_cons_eq_some.mp found
    rw [List.length_append]
    rcases List.mem_cons.mp first with rfl | later
    · obtain ⟨two,found,short⟩ := length_le_gather rest (List.mem_of_ne_of_mem other.symm second)
      exact ⟨here,two,own,found,by omega⟩
    · rcases List.mem_cons.mp second with same | second
      · obtain ⟨one,found',short⟩ := length_le_gather rest later
        subst same
        exact ⟨one,here,found',own,by omega⟩
      · obtain ⟨one,two,foundOne,foundTwo,short⟩ := ih rest later second
        exact ⟨one,two,foundOne,foundTwo,by omega⟩

end

section
variable {Node : Type u}

/-- The nodes of a chain that starts with a node, each below the one before it. -/
inductive Chain (Below : Node → Node → Prop) : Node → List Node → Prop
  | here (node : Node) : Chain Below node [node]
  | down {node next : Node} {rest : List Node} : Below node next → Chain Below next rest → Chain Below node (node :: rest)

variable {Below : Node → Node → Prop}

theorem Chain.head (chain : Chain Below node l) : ∃ rest, l = node :: rest := by
  cases chain with
  | here => exact ⟨[],rfl⟩
  | down => exact ⟨_,rfl⟩

theorem Chain.congr {Other : Node → Node → Prop} (same : ∀ node next, Below node next ↔ Other node next) {node : Node}
    {l : List Node} : Chain Below node l ↔ Chain Other node l := by
  obtain rfl : Below = Other := funext (fun node => funext (fun next => propext (same node next)))
  rfl

/-- Diamonds below each other: two ways lead from a node to the next. -/
def Diamonds (Below : Node → Node → Prop) : Nat → Node → Prop
  | 0, _ => True
  | k+1, node => ∃ left right next, left ≠ right ∧ Below node left ∧ Below node right ∧
      Below left next ∧ Below right next ∧ Diamonds Below k next

theorem Diamonds.mono {Other : Node → Node → Prop} (also : ∀ node next, Below node next → Other node next) {k : Nat}
    {node : Node} (diamonds : Diamonds Below k node) : Diamonds Other k node := by
  induction k generalizing node with
  | zero => trivial
  | succ k ih =>
    obtain ⟨left,right,next,other,first,second,leftBelow,rightBelow,later⟩ := diamonds
    exact ⟨left,right,next,other,also _ _ first,also _ _ second,also _ _ leftBelow,also _ _ rightBelow,ih later⟩

variable (below : Node → List Node)

/-- The chains from a node; none of them where the walk is deeper than it may be. -/
def chains : Nat → Node → Option (List (List Node))
  | 0, _ => none
  | depth+1, node => (gather (chains depth) (below node)).map (fun found => [node] :: found.map (node :: ·))

/-- The nodes that the walk from a node visits, in their order. -/
def visits : Nat → Node → Option (List Node)
  | 0, _ => none
  | depth+1, node => (gather (visits depth) (below node)).map (node :: ·)

variable {below} {depth : Nat} {node : Node}

theorem chains_eq_some {found : List (List Node)} : chains below (depth + 1) node = some found ↔
    ∃ later, gather (chains below depth) (below node) = some later ∧ found = [node] :: later.map (node :: ·) := by
  rw [chains,Option.map_eq_some_iff]
  exact exists_congr (fun later => and_congr_right (fun _ => eq_comm))

theorem visits_eq_some {found : List Node} : visits below (depth + 1) node = some found ↔
    ∃ later, gather (visits below depth) (below node) = some later ∧ found = node :: later := by
  rw [visits,Option.map_eq_some_iff]
  exact exists_congr (fun later => and_congr_right (fun _ => eq_comm))

/-- The walk finds the chains from its node, whatever its depth. -/
theorem mem_chains_iff {found : List (List Node)} (walked : chains below depth node = some found) {l : List Node} :
    l ∈ found ↔ Chain (fun node next => next ∈ below node) node l := by
  induction depth generalizing node found l with
  | zero => cases walked
  | succ depth ih =>
    obtain ⟨later,gathered,rfl⟩ := chains_eq_some.mp walked
    constructor
    · intro member
      rcases List.mem_cons.mp member with rfl | member
      · exact .here node
      · obtain ⟨rest,there,rfl⟩ := List.mem_map.mp member
        obtain ⟨next,child,part,own,inside⟩ := (mem_gather_iff gathered).mp there
        exact .down child ((ih own).mp inside)
    · intro chain
      cases chain with
      | here => exact List.mem_cons_self
      | @down _ next rest child chain =>
        obtain ⟨part,own⟩ := Option.isSome_iff_exists.mp
          (gather_isSome_iff.mp (Option.isSome_iff_exists.mpr ⟨later,gathered⟩) next child)
        have inside : rest ∈ later := (mem_gather_iff gathered).mpr ⟨next,child,part,own,(ih own).mpr chain⟩
        exact List.mem_cons_of_mem _ (List.mem_map_of_mem inside)

/-- The walk ends well just where it may be as deep as every chain is long. -/
theorem chains_isSome_iff : (chains below depth node).isSome ↔
    ∀ l, Chain (fun node next => next ∈ below node) node l → l.length ≤ depth := by
  induction depth generalizing node with
  | zero =>
    refine iff_of_false (by simp [chains]) (fun short => ?_)
    exact absurd (short [node] (.here node)) (by simp)
  | succ depth ih =>
    have inner : (chains below (depth + 1) node).isSome ↔ ∀ next ∈ below node, (chains below depth next).isSome := by
      rw [← gather_isSome_iff]
      simp [chains]
    rw [inner]
    constructor
    · intro short l chain
      cases chain with
      | here => simp
      | down child chain => exact Nat.succ_le_succ (ih.mp (short _ child) _ chain)
    · intro short next child
      exact ih.mpr (fun l chain => Nat.le_of_succ_le_succ (short _ (.down child chain)))

theorem gather_nodup {found : List (List Node)} {nodes : List Node} (distinct : nodes.Nodup)
    (each : ∀ next ∈ nodes, ∀ part, chains below depth next = some part → part.Nodup)
    (gathered : gather (chains below depth) nodes = some found) : found.Nodup := by
  induction nodes generalizing found with
  | nil =>
    obtain rfl := Option.some.inj gathered
    exact List.nodup_nil
  | cons next nodes ih =>
    obtain ⟨here,there,first,rest,rfl⟩ := gather_cons_eq_some.mp gathered
    obtain ⟨other,distinct⟩ := List.nodup_cons.mp distinct
    obtain ⟨own,each⟩ := List.forall_mem_cons.mp each
    refine List.nodup_append.mpr ⟨own here first,ih distinct each rest,?_⟩
    rintro l one _ two rfl
    -- a chain starts with one node only
    obtain ⟨third,member,part,own,inside⟩ := (mem_gather_iff rest).mp two
    obtain ⟨_,rfl⟩ := ((mem_chains_iff first).mp one).head
    obtain ⟨_,same⟩ := ((mem_chains_iff own).mp inside).head
    exact other ((List.cons.inj same).1 ▸ member)

theorem chains_nodup (distinct : ∀ node, (below node).Nodup) {found : List (List Node)}
    (walked : chains below depth node = some found) : found.Nodup := by
  induction depth generalizing node found with
  | zero => cases walked
  | succ depth ih =>
    obtain ⟨later,gathered,rfl⟩ := chains_eq_some.mp walked
    have inner := gather_nodup (distinct node) (fun next _ part own => ih own) gathered
    refine List.nodup_cons.mpr ⟨?_,inner.map (List.cons_injective)⟩
    intro member
    obtain ⟨rest,there,same⟩ := List.mem_map.mp member
    obtain ⟨next,_,part,own,inside⟩ := (mem_gather_iff gathered).mp there
    obtain ⟨others,rfl⟩ := ((mem_chains_iff own).mp inside).head
    cases (List.cons.inj same).2

/-- The walk visits what the chains end with, once for each of them. -/
theorem visits_eq : (visits below depth node).map (List.map some) =
    (chains below depth node).map (List.map List.getLast?) := by
  induction depth generalizing node with
  | zero => rfl
  | succ depth ih =>
    have inner : (gather (visits below depth) (below node)).map (List.map some) =
        (gather (chains below depth) (below node)).map (List.map List.getLast?) := by
      rw [← gather_map,← gather_map]
      exact congrArg (gather · (below node)) (funext (fun next => ih))
    cases walked : gather (chains below depth) (below node) with
    | none =>
      rw [walked,Option.map_none,Option.map_eq_none_iff] at inner
      simp [visits,chains,walked,inner]
    | some found =>
      obtain ⟨visited,other,same⟩ := Option.map_eq_some_iff.mp (inner.trans (by rw [walked,Option.map_some]))
      have ends : ∀ l ∈ found, (node :: l).getLast? = l.getLast? := by
        intro l member
        obtain ⟨next,_,part,own,inside⟩ := (mem_gather_iff walked).mp member
        obtain ⟨rest,rfl⟩ := ((mem_chains_iff own).mp inside).head
        exact List.getLast?_cons_cons
      simp only [visits,chains,walked,other,Option.map_some,List.map_cons,List.map_map,same]
      rw [List.map_congr_left (fun l member => (ends l member).symm)]
      rfl

theorem visits_isSome : (visits below depth node).isSome = (chains below depth node).isSome := by
  simpa using congrArg Option.isSome (@visits_eq _ below depth node)

/-- A walk that visits its nodes finds as many chains, and these end with what it visits. -/
theorem visits_chains {visited : List Node} (walked : visits below depth node = some visited) :
    ∃ found, chains below depth node = some found ∧ found.length = visited.length ∧
      ∀ last, last ∈ visited ↔ ∃ l ∈ found, l.getLast? = some last := by
  have same := @visits_eq _ below depth node
  rw [walked,Option.map_some] at same
  obtain ⟨found,there,ends⟩ := Option.map_eq_some_iff.mp same.symm
  refine ⟨found,there,by simpa using congrArg List.length ends,fun last => ?_⟩
  calc last ∈ visited ↔ some last ∈ visited.map some := by simp
    _ ↔ ∃ l ∈ found, l.getLast? = some last := by rw [← ends,List.mem_map]

theorem visits_head {visited : List Node} (walked : visits below depth node = some visited) :
    ∃ later, visited = node :: later := by
  cases depth with
  | zero => cases walked
  | succ depth =>
    obtain ⟨later,_,rfl⟩ := visits_eq_some.mp walked
    exact ⟨later,rfl⟩

/-- Whatever is below a node is visited again after each visit of the node. -/
theorem visits_after {front back : List Node} {last next : Node}
    (walked : visits below depth node = some (front ++ last :: back)) (child : next ∈ below last) : next ∈ back := by
  induction depth generalizing node front back with
  | zero => cases walked
  | succ depth ih =>
    obtain ⟨later,gathered,split⟩ := visits_eq_some.mp walked
    cases front with
    | nil =>
      obtain ⟨rfl,rfl⟩ := List.cons.inj split
      obtain ⟨part,own⟩ := Option.isSome_iff_exists.mp
        (gather_isSome_iff.mp (Option.isSome_iff_exists.mpr ⟨_,gathered⟩) next child)
      obtain ⟨rest,rfl⟩ := visits_head own
      exact (mem_gather_iff gathered).mpr ⟨next,child,_,own,List.mem_cons_self⟩
    | cons _ front =>
      obtain ⟨rfl,rfl⟩ := List.cons.inj split
      obtain ⟨_,_,before,after,own,inside⟩ := gather_split gathered
      exact inside.subset (ih own)

/-- What is below the end of a chain is below its start. -/
theorem length_le_visits {l : List Node} (chain : Chain (fun node next => next ∈ below node) node l) {last : Node}
    (ends : l.getLast? = some last) {visited : List Node} (walked : visits below depth node = some visited) :
    ∃ rest part, visits below rest last = some part ∧ part.length ≤ visited.length := by
  induction chain generalizing depth visited with
  | here node =>
    obtain rfl : node = last := by simpa using ends
    exact ⟨depth,visited,walked,Nat.le_refl _⟩
  | @down node next others child later ih =>
    cases depth with
    | zero => cases walked
    | succ depth =>
      obtain ⟨gathered,found,rfl⟩ := visits_eq_some.mp walked
      obtain ⟨part,own,short⟩ := length_le_gather found child
      obtain ⟨third,rfl⟩ := later.head
      obtain ⟨rest,inner,there,shorter⟩ := ih (by simpa [List.getLast?_cons] using ends) own
      exact ⟨rest,inner,there,by rw [List.length_cons]; omega⟩

/-- Every diamond doubles what the walk visits below it. -/
theorem doubled {k : Nat} (diamonds : Diamonds (fun node next => next ∈ below node) k node) {visited : List Node}
    (walked : visits below depth node = some visited) : 2 ^ (k + 2) ≤ visited.length + 3 := by
  induction k generalizing depth node visited with
  | zero =>
    obtain ⟨later,rfl⟩ := visits_head walked
    simp
  | succ k ih =>
    obtain ⟨left,right,next,other,first,second,leftBelow,rightBelow,diamonds⟩ := diamonds
    -- both ways lead to all that is below the next node
    have way : ∀ depth side visited, next ∈ below side → visits below depth side = some visited →
        2 ^ (k + 2) ≤ visited.length + 2 := by
      intro depth side visited child walked
      cases depth with
      | zero => cases walked
      | succ depth =>
        obtain ⟨later,gathered,rfl⟩ := visits_eq_some.mp walked
        obtain ⟨part,own,short⟩ := length_le_gather gathered child
        have := ih diamonds own
        rw [List.length_cons]
        omega
    cases depth with
    | zero => cases walked
    | succ depth =>
      obtain ⟨later,gathered,rfl⟩ := visits_eq_some.mp walked
      obtain ⟨one,two,foundOne,foundTwo,short⟩ := length_add_le_gather gathered other first second
      have one_long := way _ _ _ leftBelow foundOne
      have two_long := way _ _ _ rightBelow foundTwo
      have : 2 ^ (k + 1 + 2) = 2 ^ (k + 2) * 2 := Nat.pow_succ 2 (k + 2)
      rw [List.length_cons]
      omega

end

end Zasper.Chains
