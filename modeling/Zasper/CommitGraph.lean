import Mathlib.Tactic.Linarith
import Mathlib.Tactic.SplitIfs
import Zasper.Chains
import Zasper.JsObjects

/-!
# The commit graph

The tree that the page lays out over the commits of the log, from the first commit
without parents: a commit is laid out once for every chain of commits that leads down
to it, each time anew, so the last time counts. With room for so many nested calls the
layout is made if and only if no chain is longer, and then every commit stands below its
parents (`graph_laid_out`); two branches that are merged double it (`merges_double`).
-/
namespace Zasper.CommitGraph
open Zasper.Chains Zasper.JsObjects
set_option linter.unusedSimpArgs false

structure Commit where
  hash : String
  message : String
  author : String
  date : String
  parents : List String
deriving DecidableEq

structure CommitNode where
  id : String
  x : Int
  y : Int
  /-- The nodes of the children, by their ids. -/
  children : List String
  commit : Commit
deriving DecidableEq

abbrev CommitMap := JsObject CommitNode

/-! ## The tree -/

def newNode (commit : Commit) : CommitNode := ⟨commit.hash,0,0,[],commit⟩

def commitMap (data : List Commit) : CommitMap :=
  data.foldl (fun commitMap commit => commitMap.assign commit.hash (newNode commit)) .empty

/-- The node of a commit among the children of its parents. Hashes are no names that objects inherit. -/
def link (commitMap : CommitMap) (commit : Commit) : CommitMap :=
  commit.parents.foldl (fun commitMap parentHash =>
    if commitMap.has parentHash then
      commitMap.modify parentHash (fun node => { node with children := node.children ++ [commit.hash] })
    else commitMap) commitMap

def tree (data : List Commit) : CommitMap := data.foldl link (commitMap data)

def childrenOf (commitMap : CommitMap) (id : String) : List String := (commitMap.get? id).elim [] (·.children)

/-! ## The layout -/

structure Layout where
  commitMap : CommitMap
  yPosition : Int

def place (layout : Layout) (node : String × Int) : Layout where
  commitMap := layout.commitMap.modify node.1 (fun n => { n with x := node.2,y := layout.yPosition })
  yPosition := layout.yPosition + 150

/-- The layout of what is below a node, where so many calls may be nested. -/
def layoutTree : Nat → String → Int → Layout → Option Layout
  | 0, _, _, _ => none
  | depth+1, node, x, layout =>
    let placed := place layout (node,x)
    let children := childrenOf placed.commitMap node
    -- half a child is a hundred wide
    children.zipIdx.foldlM (fun layout child =>
      layoutTree depth child.1 (x + (2 * child.2 - children.length) * 100) layout) placed

def rootCommit (data : List Commit) : Option Commit := data.find? (fun commit => commit.parents.length = 0)

/-- What the page has laid out; it shows a row for each node of the map. -/
def layout (depth : Nat) (data : List Commit) : Option Layout :=
  match rootCommit data with
  | some root => layoutTree depth root.hash 400 ⟨tree data,100⟩
  | none => some ⟨tree data,100⟩

/-! ## What it is for -/

/-- The commits as the log names them: each once, and with each of its parents once. -/
structure History (data : List Commit) : Prop where
  hashes : (data.map Commit.hash).Nodup
  parents : ∀ commit ∈ data, commit.parents.Nodup

/-- Both are in the log, and the one is a parent of the other. -/
def ParentOf (data : List Commit) (parent child : String) : Prop :=
  parent ∈ data.map Commit.hash ∧ ∃ commit ∈ data, commit.hash = child ∧ parent ∈ commit.parents

/-- A chain of commits down from the first one without parents. -/
def Descent (data : List Commit) (l : List String) : Prop :=
  ∃ root, rootCommit data = some root ∧ Chain (ParentOf data) root.hash l

/-- The commit is the first one without parents or descends from it. -/
def Descends (data : List Commit) (hash : String) : Prop := ∃ l, Descent data l ∧ l.getLast? = some hash

structure LaidOut (data : List Commit) (layout : Layout) : Prop where
  /-- Every commit has its row. -/
  rows : (layout.commitMap.values.map CommitNode.commit).Perm data
  /-- Every chain took a place. -/
  calls : ∃ descents : List (List String), descents.Nodup ∧ (∀ l, l ∈ descents ↔ Descent data l) ∧
    layout.yPosition = 100 + 150 * descents.length
  below : ∀ parent ∈ layout.commitMap.values, ∀ child ∈ layout.commitMap.values,
    Descends data parent.id → parent.id ∈ child.commit.parents → parent.y < child.y
  apart : ∀ a ∈ layout.commitMap.values, ∀ b ∈ layout.commitMap.values,
    Descends data a.id → Descends data b.id → a.y = b.y → a = b
  others : ∀ node ∈ layout.commitMap.values, ¬ Descends data node.id → node.x = 0 ∧ node.y = 0

/-! ## The nodes of the tree -/

section
variable {data : List Commit} {layout : Layout}

/-- The commits with a parent, each as often as the parent is named. -/
def childrenIn (data : List Commit) (id : String) : List String :=
  data.flatMap (fun commit => (commit.parents.filter (· = id)).map (fun _ => commit.hash))

theorem link_get? (m : CommitMap) (commit : Commit) (id : String) : (link m commit).get? id =
    (m.get? id).map (fun node => { node with children := node.children ++ childrenIn [commit] id }) := by
  simp only [childrenIn,List.flatMap_singleton]
  unfold link
  induction commit.parents generalizing m with
  | nil => simp
  | cons parent parents ih =>
    rw [List.foldl_cons,ih]
    by_cases known : m.has parent
    · rw [if_pos known,JsObject.get?_modify]
      cases m.get? id with
      | none => rfl
      | some node =>
        by_cases here : id = parent
        · simp [here]
        · simp [here,Ne.symm here]
    · rw [if_neg known]
      cases found : m.get? id with
      | none => rfl
      | some node =>
        have other : parent ≠ id := by
          rintro rfl
          rw [JsObject.get?_eq_none.mpr (by simpa using known)] at found
          cases found
        simp [other]

theorem links_get? (m : CommitMap) (commits : List Commit) (id : String) : (commits.foldl link m).get? id =
    (m.get? id).map (fun node => { node with children := node.children ++ childrenIn commits id }) := by
  induction commits generalizing m with
  | nil => simp [childrenIn]
  | cons commit commits ih =>
    rw [List.foldl_cons,ih,link_get?]
    cases m.get? id <;> simp [childrenIn]

theorem commitMap_get? (history : History data) (id : String) :
    (commitMap data).get? id = (data.find? (fun commit => commit.hash = id)).map newNode := by
  have general : ∀ (commits : List Commit) (m : CommitMap), (commits.map Commit.hash).Nodup →
      (commits.foldl (fun m commit => m.assign commit.hash (newNode commit)) m).get? id =
        ((commits.find? (fun commit => commit.hash = id)).map newNode).or (m.get? id) := by
    intro commits
    induction commits with
    | nil => intros; rfl
    | cons commit commits ih =>
      intro m distinct
      obtain ⟨other,distinct⟩ := List.nodup_cons.mp distinct
      rw [List.foldl_cons,ih _ distinct,JsObject.get?_assign]
      by_cases here : commit.hash = id
      · have missing : commits.find? (fun commit => commit.hash = id) = none := by
          rw [List.find?_eq_none]
          intro later member
          simp only [decide_eq_true_eq]
          rintro rfl
          exact other (here ▸ List.mem_map_of_mem member)
        simp [here,missing]
      · simp [here,Ne.symm here]
  rw [commitMap,general _ _ history.hashes]
  simp [JsObject.empty,JsObject.get?]

theorem tree_get? (history : History data) (id : String) : (tree data).get? id =
    (data.find? (fun commit => commit.hash = id)).map (fun commit =>
      { newNode commit with children := childrenIn data id }) := by
  rw [tree,links_get?,commitMap_get? history,Option.map_map]
  rfl

/-- A node of the tree is that of the commit it is named after, at the origin. -/
theorem tree_node (history : History data) {id : String} {node : CommitNode} (found : (tree data).get? id = some node) :
    ∃ commit ∈ data, commit.hash = id ∧ node = { newNode commit with children := childrenIn data id } := by
  rw [tree_get? history] at found
  obtain ⟨commit,here,rfl⟩ := Option.map_eq_some_iff.mp found
  exact ⟨commit,List.mem_of_find?_eq_some here,by simpa using List.find?_some here,rfl⟩

theorem tree_get?_commit (history : History data) {commit : Commit} (member : commit ∈ data) :
    (tree data).get? commit.hash = some { newNode commit with children := childrenIn data commit.hash } := by
  have listed : (data.find? (fun other => other.hash = commit.hash)).isSome :=
    List.find?_isSome.mpr ⟨commit,member,by simp⟩
  obtain ⟨found,here⟩ := Option.isSome_iff_exists.mp listed
  have same : found = commit := List.inj_on_of_nodup_map history.hashes (List.mem_of_find?_eq_some here) member
    (by simpa using List.find?_some here)
  rw [tree_get? history,here,same]
  rfl

theorem mem_childrenOf_iff (history : History data) {parent child : String} :
    child ∈ childrenOf (tree data) parent ↔ ParentOf data parent child := by
  have named : ∀ commits, child ∈ childrenIn commits parent ↔
      ∃ commit ∈ commits, commit.hash = child ∧ parent ∈ commit.parents := by
    intro commits
    simp only [childrenIn,List.mem_flatMap,List.mem_map,List.mem_filter,decide_eq_true_eq]
    refine exists_congr (fun commit => and_congr_right (fun _ => ⟨?_,?_⟩))
    · rintro ⟨_,⟨there,rfl⟩,same⟩
      exact ⟨same,there⟩
    · rintro ⟨same,there⟩
      exact ⟨parent,⟨there,rfl⟩,same⟩
  constructor
  · intro member
    unfold childrenOf at member
    cases found : (tree data).get? parent with
    | none => simp [found] at member
    | some node =>
      obtain ⟨commit,listed,same,rfl⟩ := tree_node history found
      rw [found] at member
      exact ⟨same ▸ List.mem_map_of_mem listed,(named data).mp member⟩
  · rintro ⟨listed,below⟩
    obtain ⟨commit,member,rfl⟩ := List.mem_map.mp listed
    rw [childrenOf,tree_get?_commit history member]
    exact (named data).mpr below

theorem childrenIn_nodup (history : History data) (id : String) : (childrenIn data id).Nodup := by
  refine List.nodup_flatMap.mpr ⟨fun commit member => ?_,?_⟩
  · -- a parent is named once
    have once : (commit.parents.filter (· = id)).length ≤ 1 := by
      rw [← List.countP_eq_length_filter]
      have := List.nodup_iff_count_le_one.mp (history.parents commit member) id
      simpa [List.count,beq_eq_decide] using this
    rw [List.map_const']
    exact List.nodup_replicate.mpr once
  · refine (List.pairwise_map.mp history.hashes).imp ?_
    intro a b other
    simp only [Function.onFun,List.disjoint_left,List.mem_map]
    rintro _ ⟨_,_,rfl⟩ ⟨_,_,same⟩
    exact other same.symm

theorem childrenOf_nodup (history : History data) (id : String) : (childrenOf (tree data) id).Nodup := by
  unfold childrenOf
  cases found : (tree data).get? id with
  | none => exact List.nodup_nil
  | some node =>
    obtain ⟨_,_,_,rfl⟩ := tree_node history found
    exact childrenIn_nodup history id

/-! ## The calls -/

@[simp] theorem childrenOf_place (layout : Layout) (node : String × Int) (id : String) :
    childrenOf (place layout node).commitMap id = childrenOf layout.commitMap id := by
  simp only [childrenOf,place,JsObject.get?_modify]
  cases layout.commitMap.get? id with
  | none => rfl
  | some n => simp only [Option.map_some,Option.elim_some]; split_ifs <;> rfl

theorem childrenOf_foldl_place (layout : Layout) (placed : List (String × Int)) (id : String) :
    childrenOf (placed.foldl place layout).commitMap id = childrenOf layout.commitMap id := by
  induction placed generalizing layout with
  | nil => rfl
  | cons node placed ih => rw [List.foldl_cons,ih,childrenOf_place]

/-- The nodes that a walk visits are placed one after the other, or there is no room for the walk. -/
def Places (layout : Layout) (after : Option Layout) (visited : Option (List String)) : Prop :=
  (after = none ∧ visited = none) ∨
    ∃ placed : List (String × Int), after = some (placed.foldl place layout) ∧ visited = some (placed.map Prod.fst)

variable {below : String → List String} {depth : Nat}

theorem places_children (inner : ∀ node x layout, (∀ id, childrenOf layout.commitMap id = below id) →
      Places layout (layoutTree depth node x layout) (visits below depth node))
    (shift : String × Nat → Int) (children : List (String × Nat)) (layout : Layout)
    (known : ∀ id, childrenOf layout.commitMap id = below id) :
    Places layout (children.foldlM (fun layout child => layoutTree depth child.1 (shift child) layout) layout)
      (gather (visits below depth) (children.map Prod.fst)) := by
  induction children generalizing layout with
  | nil => exact .inr ⟨[],rfl,rfl⟩
  | cons child children ih =>
    rcases inner child.1 (shift child) layout known with ⟨full,missing⟩ | ⟨first,made,found⟩
    · exact .inl ⟨by simp [full],by simp [gather,missing]⟩
    · rcases ih (first.foldl place layout) (fun id => by rw [childrenOf_foldl_place,known]) with
        ⟨full,missing⟩ | ⟨rest,madeRest,foundRest⟩
      · exact .inl ⟨by simp [made,full],by simp [gather,found,missing]⟩
      · refine .inr ⟨first ++ rest,?_,?_⟩
        · simp [made,madeRest]
        · simp [gather,found,foundRest]

theorem layoutTree_places (node : String) (x : Int) (layout : Layout)
    (known : ∀ id, childrenOf layout.commitMap id = below id) :
    Places layout (layoutTree depth node x layout) (visits below depth node) := by
  induction depth generalizing node x layout with
  | zero => exact .inl ⟨rfl,rfl⟩
  | succ depth ih =>
    have knownPlaced : ∀ id, childrenOf (place layout (node,x)).commitMap id = below id :=
      fun id => (childrenOf_place layout (node,x) id).trans (known id)
    have all := places_children ih (fun child => x + (2 * child.2 - (below node).length) * 100)
      (below node).zipIdx (place layout (node,x)) knownPlaced
    rw [List.zipIdx_map_fst] at all
    simp only [layoutTree,visits,knownPlaced]
    rcases all with ⟨full,missing⟩ | ⟨placed,made,found⟩
    · exact .inl ⟨full,by rw [missing]; rfl⟩
    · exact .inr ⟨(node,x) :: placed,made,by rw [found]; rfl⟩

/-! ## The places -/

theorem place_yPosition (layout : Layout) (placed : List (String × Int)) :
    (placed.foldl place layout).yPosition = layout.yPosition + 150 * placed.length := by
  induction placed generalizing layout with
  | nil => simp
  | cons node placed ih =>
    rw [List.foldl_cons,ih,List.length_cons]
    simp only [place]
    push_cast
    omega

theorem place_others {id : String} {placed : List (String × Int)} (other : id ∉ placed.map Prod.fst) (layout : Layout) :
    (placed.foldl place layout).commitMap.get? id = layout.commitMap.get? id := by
  induction placed generalizing layout with
  | nil => rfl
  | cons node placed ih =>
    simp only [List.map_cons,List.mem_cons,not_or] at other
    rw [List.foldl_cons,ih other.2]
    simp [place,JsObject.get?_modify,other.1]

/-- A node is where it was placed last. -/
theorem place_last {front back : List (String × Int)} {node : String × Int} (last : node.1 ∉ back.map Prod.fst)
    (layout : Layout) {n : CommitNode}
    (found : ((front ++ node :: back).foldl place layout).commitMap.get? node.1 = some n) :
    n.y = layout.yPosition + 150 * front.length := by
  rw [List.foldl_append,List.foldl_cons,place_others last] at found
  simp only [place,JsObject.get?_modify,if_true] at found
  obtain ⟨_,_,rfl⟩ := Option.map_eq_some_iff.mp found
  exact place_yPosition layout front

theorem place_commits (placed : List (String × Int)) (layout : Layout) :
    (placed.foldl place layout).commitMap.mapValues (fun _ node => (node.id,node.commit)) =
      layout.commitMap.mapValues (fun _ node => (node.id,node.commit)) := by
  induction placed generalizing layout with
  | nil => rfl
  | cons node placed ih =>
    rw [List.foldl_cons,ih]
    simp only [place,JsObject.modify,JsObject.mapValues_mapValues]
    congr 1
    funext key n
    split_ifs <;> rfl

/-! ## The layout of a history -/

/-- A layout, from the nodes that were placed for it. -/
structure Made (data : List Commit) (layout : Layout) (placed : List (String × Int)) : Prop where
  layout : layout = placed.foldl place ⟨tree data,100⟩
  calls : ∃ descents : List (List String), descents.Nodup ∧ (∀ l, l ∈ descents ↔ Descent data l) ∧
    descents.length = placed.length
  reached : ∀ id, id ∈ placed.map Prod.fst ↔ Descends data id
  after : ∀ front last back, placed.map Prod.fst = front ++ last :: back →
    ∀ next, ParentOf data last next → next ∈ back

theorem layout_of_root {root : Commit} (found : rootCommit data = some root) :
    CommitGraph.layout depth data = layoutTree depth root.hash 400 ⟨tree data,100⟩ := by
  rw [CommitGraph.layout,found]

theorem layout_made (history : History data) (made : CommitGraph.layout depth data = some layout) :
    ∃ placed, Made data layout placed := by
  cases found : rootCommit data with
  | none =>
    rw [CommitGraph.layout,found] at made
    obtain rfl := Option.some.inj made
    have none_descends : ∀ l, ¬ Descent data l := fun l ⟨root,here,_⟩ => by rw [found] at here; cases here
    exact ⟨[],{
      layout := rfl
      calls := ⟨[],List.nodup_nil,fun l => by simp [none_descends],rfl⟩
      reached := fun id => by simp [Descends,none_descends]
      after := fun front last back split => by simp at split }⟩
  | some root =>
    rw [layout_of_root found] at made
    rcases layoutTree_places root.hash 400 ⟨tree data,100⟩ (fun id => rfl) with ⟨full,_⟩ | ⟨placed,places,visited⟩
    · cases full.symm.trans made
    obtain ⟨descents,walked,count,ends⟩ := visits_chains visited
    have descent : ∀ l, l ∈ descents ↔ Descent data l := by
      intro l
      rw [mem_chains_iff walked,Chain.congr (fun _ _ => mem_childrenOf_iff history)]
      simp [Descent,found]
    exact ⟨placed,{
      layout := Option.some.inj (made.symm.trans places)
      calls := ⟨descents,chains_nodup (childrenOf_nodup history) walked,descent,by simpa using count⟩
      reached := fun id => by
        rw [ends id]
        exact exists_congr (fun l => and_congr_left (fun _ => descent l))
      after := fun front last back split next child =>
        visits_after (split ▸ visited) ((mem_childrenOf_iff history).mpr child) }⟩

/-- The layout is made where no chain is longer than the calls may be nested. -/
theorem layout_isSome_iff (history : History data) :
    (CommitGraph.layout depth data).isSome ↔ ∀ l, Descent data l → l.length ≤ depth := by
  cases found : rootCommit data with
  | none => simp [CommitGraph.layout,Descent,found]
  | some root =>
    have walk : (layoutTree depth root.hash 400 ⟨tree data,100⟩).isSome =
        (visits (childrenOf (tree data)) depth root.hash).isSome := by
      rcases layoutTree_places root.hash 400 ⟨tree data,100⟩ (fun id => rfl) with
        ⟨full,missing⟩ | ⟨placed,places,visited⟩
      · rw [full,missing]
        rfl
      · rw [places,visited]
        rfl
    rw [layout_of_root found,walk,visits_isSome,chains_isSome_iff]
    have descent : ∀ l, Chain (fun node next => next ∈ childrenOf (tree data) node) root.hash l ↔ Descent data l := by
      intro l
      rw [Chain.congr (fun _ _ => mem_childrenOf_iff history)]
      simp [Descent,found]
    exact forall_congr' (fun l => imp_congr_left (descent l))

theorem placed_last {id : String} {placed : List (String × Int)} (member : id ∈ placed.map Prod.fst) :
    ∃ front node back, placed = front ++ node :: back ∧ node.1 = id ∧ id ∉ back.map Prod.fst := by
  induction placed with
  | nil => cases member
  | cons node placed ih =>
    by_cases again : id ∈ placed.map Prod.fst
    · obtain ⟨front,last,back,rfl,same,end'⟩ := ih again
      exact ⟨node :: front,last,back,rfl,same,end'⟩
    · rcases List.mem_cons.mp member with rfl | later
      · exact ⟨[],node,placed,rfl,rfl,again⟩
      · exact absurd later again

variable {placed : List (String × Int)}

/-- What is in the map under a key is the node of the commit with this hash. -/
theorem Made.entry (made : Made data layout placed) (history : History data) {key : String} {node : CommitNode}
    (there : (key,node) ∈ layout.commitMap.entries) : node.id = key ∧ node.commit ∈ data ∧ node.commit.hash = key := by
  have found := JsObject.get?_eq_some.mpr there
  have kept := congrArg (JsObject.get? · key) (place_commits placed ⟨tree data,100⟩)
  simp only [JsObject.get?_mapValues,← made.layout,found,Option.map_some] at kept
  obtain ⟨n,first,same⟩ := Option.map_eq_some_iff.mp kept.symm
  obtain ⟨commit,listed,rfl,rfl⟩ := tree_node history first
  obtain ⟨idSame,commitSame⟩ := Prod.mk.inj same
  simp only [newNode] at idSame commitSame
  exact ⟨idSame.symm,commitSame ▸ listed,commitSame ▸ rfl⟩

theorem Made.node (made : Made data layout placed) (history : History data) {node : CommitNode}
    (member : node ∈ layout.commitMap.values) :
    layout.commitMap.get? node.id = some node ∧ node.commit ∈ data ∧ node.commit.hash = node.id := by
  obtain ⟨⟨key,_⟩,there,rfl⟩ := List.mem_map.mp member
  obtain ⟨rfl,listed,same⟩ := made.entry history there
  exact ⟨JsObject.get?_eq_some.mpr there,listed,same⟩

theorem Made.commit (made : Made data layout placed) (history : History data) {commit : Commit} (listed : commit ∈ data) :
    commit ∈ layout.commitMap.values.map CommitNode.commit := by
  have kept := congrArg (JsObject.get? · commit.hash) (place_commits placed ⟨tree data,100⟩)
  simp only [JsObject.get?_mapValues,← made.layout,tree_get?_commit history listed,Option.map_some] at kept
  obtain ⟨n,found,same⟩ := Option.map_eq_some_iff.mp kept
  exact List.mem_map.mpr ⟨n,List.mem_map.mpr ⟨_,JsObject.get?_eq_some.mp found,rfl⟩,(Prod.mk.inj same).2⟩

/-- Where a node is that was placed: at the last call for it. -/
theorem Made.last_call (made : Made data layout placed) (history : History data) {node : CommitNode}
    (member : node ∈ layout.commitMap.values) (descends : Descends data node.id) :
    ∃ front x back, placed = front ++ (node.id,x) :: back ∧ node.id ∉ back.map Prod.fst ∧
      node.y = 100 + 150 * front.length := by
  obtain ⟨front,⟨id,x⟩,back,split,rfl,last⟩ := placed_last ((made.reached node.id).mpr descends)
  have found := (made.node history member).1
  rw [made.layout,split] at found
  exact ⟨front,x,back,split,last,place_last last _ found⟩

theorem Made.laidOut (made : Made data layout placed) (history : History data) : LaidOut data layout where
  rows := by
    have keys : (layout.commitMap.entries.map (·.1)).Nodup :=
      List.pairwise_map.mpr (layout.commitMap.ordered.imp (fun h => h.1))
    have hashes : (layout.commitMap.values.map CommitNode.commit).map Commit.hash = layout.commitMap.entries.map (·.1) := by
      simp only [JsObject.values,List.map_map]
      exact List.map_congr_left (fun e there => (made.entry history there).2.2)
    have distinct := List.Nodup.of_map Commit.hash (hashes ▸ keys)
    refine (List.perm_ext_iff_of_nodup distinct (List.Nodup.of_map _ history.hashes)).mpr ?_
    refine fun commit => ⟨fun there => ?_,made.commit history⟩
    obtain ⟨node,member,rfl⟩ := List.mem_map.mp there
    exact (made.node history member).2.1
  calls := by
    obtain ⟨descents,distinct,all,count⟩ := made.calls
    exact ⟨descents,distinct,all,by rw [made.layout,place_yPosition,count]⟩
  below := by
    intro parent parentMember child childMember descends named
    obtain ⟨front,x,back,split,last,height⟩ := made.last_call history parentMember descends
    obtain ⟨_,parentListed,parentHash⟩ := made.node history parentMember
    obtain ⟨_,childListed,childHash⟩ := made.node history childMember
    have parentOf : ParentOf data parent.id child.id :=
      ⟨parentHash ▸ List.mem_map_of_mem parentListed,child.commit,childListed,childHash,named⟩
    have later : child.id ∈ back.map Prod.fst :=
      made.after (front.map Prod.fst) parent.id _ (by rw [split]; simp) _ parentOf
    obtain ⟨between,⟨_,x'⟩,rest,splitBack,rfl,lastBack⟩ := placed_last later
    have found := (made.node history childMember).1
    rw [made.layout,split,splitBack,← List.cons_append,← List.append_assoc] at found
    have lower := place_last lastBack _ found
    simp only [List.length_append,List.length_cons] at lower
    push_cast at lower
    omega
  apart := by
    intro a aMember b bMember aDescends bDescends level
    obtain ⟨front,x,back,split,_,height⟩ := made.last_call history aMember aDescends
    obtain ⟨front',x',back',split',_,height'⟩ := made.last_call history bMember bDescends
    have same : front.length = front'.length := by omega
    obtain ⟨_,ends⟩ := List.append_inj (split.symm.trans split') same
    have ids : a.id = b.id := (Prod.mk.inj (List.cons.inj ends).1).1
    exact Option.some.inj ((made.node history aMember).1.symm.trans (ids ▸ (made.node history bMember).1))
  others := by
    intro node member alone
    have found := (made.node history member).1
    have missing : node.id ∉ placed.map Prod.fst := fun there => alone ((made.reached _).mp there)
    rw [made.layout,place_others missing] at found
    obtain ⟨_,_,_,start⟩ := tree_node history found
    exact ⟨congrArg CommitNode.x start,congrArg CommitNode.y start⟩

/-- Two branches that were merged twice, and a history of its own. -/
def merges : List Commit :=
  [⟨"m2","","","",["a2","b2"]⟩,⟨"b2","","","",["m1"]⟩,⟨"a2","","","",["m1"]⟩,⟨"m1","","","",["a1","b1"]⟩,
    ⟨"b1","","","",["m0"]⟩,⟨"a1","","","",["m0"]⟩,⟨"m0","","","",[]⟩,⟨"other","","","",[]⟩]

theorem merges_history : History merges := ⟨by decide,by decide⟩

/-- With room for `depth` nested calls a history is laid out if and only if no chain of
commits down from the first one without parents is longer. Each commit then has its row
and stands below its parents, no two of those that are reached stand at one height, the
others stay at the origin, and every chain has taken a place of its own. -/
theorem graph_laid_out (history : History data) (depth : Nat) :
    ((CommitGraph.layout depth data).isSome ↔ ∀ l, Descent data l → l.length ≤ depth) ∧
    ∀ layout, CommitGraph.layout depth data = some layout → LaidOut data layout := by
  refine ⟨layout_isSome_iff history,fun layout done => ?_⟩
  obtain ⟨placed,made⟩ := layout_made history done
  exact made.laidOut history

theorem merges_laid_out : (∃ layout, CommitGraph.layout 5 merges = some layout ∧ layout.yPosition = 2050 ∧
    LaidOut merges layout) ∧ ∃ l, Descent merges l ∧ 4 < l.length := by
  obtain ⟨layout,made,count⟩ : ∃ layout, CommitGraph.layout 5 merges = some layout ∧ layout.yPosition = 2050 :=
    Option.map_eq_some_iff.mp (by decide +kernel)
  refine ⟨⟨layout,made,count,(graph_laid_out merges_history 5).2 layout made⟩,?_⟩
  -- the calls cannot be nested less
  have full : ¬ (CommitGraph.layout 4 merges).isSome := by decide +kernel
  rw [(graph_laid_out merges_history 4).1] at full
  simpa using full

/-- Where `k` merges of two branches follow each other below a commit that is laid out,
`2^(k+2) - 3` places are taken at least, though there may be only `3k + 1` commits. -/
theorem merges_double (history : History data) {hash : String} (descends : Descends data hash) {k : Nat}
    (merges : Diamonds (ParentOf data) k hash) (made : CommitGraph.layout depth data = some layout) :
    100 + 150 * ((2 : Int) ^ (k + 2) - 3) ≤ layout.yPosition := by
  obtain ⟨l,⟨root,found,chain⟩,ends⟩ := descends
  rw [layout_of_root found] at made
  rcases layoutTree_places root.hash 400 ⟨tree data,100⟩ (fun id => rfl) with ⟨full,_⟩ | ⟨placed,places,visited⟩
  · cases full.symm.trans made
  obtain rfl := Option.some.inj (places.symm.trans made)
  have related : ∀ parent child, ParentOf data parent child ↔ child ∈ childrenOf (tree data) parent :=
    fun parent child => (mem_childrenOf_iff history).symm
  have below := (Chain.congr related).mp chain
  obtain ⟨_,part,own,short⟩ := length_le_visits below ends visited
  have long := doubled (merges.mono (fun parent child => (related parent child).mp)) own
  have counted : ((2 : Int) ^ (k + 2)) ≤ placed.length + 3 := by
    rw [List.length_map] at short
    exact_mod_cast long.trans (by omega)
  rw [place_yPosition]
  linarith

theorem merges_doubled : ∃ layout, CommitGraph.layout 5 merges = some layout ∧
    100 + 150 * ((2 : Int) ^ (2 + 2) - 3) ≤ layout.yPosition := by
  obtain ⟨layout,made⟩ := Option.isSome_iff_exists.mp (by decide +kernel : (CommitGraph.layout 5 merges).isSome)
  have start : Descends merges "m0" := ⟨["m0"],⟨⟨"m0","","","",[]⟩,by decide,.here _⟩,rfl⟩
  have twice : Diamonds (ParentOf merges) 2 "m0" :=
    ⟨"a1","b1","m1",by decide,by simp [ParentOf,merges],by simp [ParentOf,merges],by simp [ParentOf,merges],
      by simp [ParentOf,merges],"a2","b2","m2",by decide,by simp [ParentOf,merges],by simp [ParentOf,merges],
      by simp [ParentOf,merges],by simp [ParentOf,merges],trivial⟩
  exact ⟨layout,made,merges_double merges_history start twice made⟩

end

end Zasper.CommitGraph
