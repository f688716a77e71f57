import Zasper.Paths
import Zasper.Runs
import Zasper.Trees

/-!
# The file browser

The items of the file explorer and the files of the project on the server, one event
after the other, every request being answered before the next event. `entry` has no
counterpart in the program: it is the id of the entry that an item was listed for. The
paths of all requests are those of the entries (`requests_right`) as long as no text is
left in a file item that was not confirmed, and nothing is asked for through a directory
that was renamed since it was listed.
-/
namespace Zasper.FileBrowser
open Zasper.Paths Zasper.Runs Zasper.Trees
set_option linter.unusedSimpArgs false

/-- A `FileItem` or a `DirectoryItem` that is shown. -/
structure Item where
  key : Nat
  /-- The keys of the directory items around it, the innermost first. -/
  ancestors : List Nat
  entry : Nat
  isDir : Bool
  parentDir : String
  /-- `path` and `name` as the server listed them. -/
  path : String
  name : String
  contentName : String
  text : String
  isEditing : Bool
  /-- Set while the children of a directory are shown. -/
  isCollapsed : Bool

structure Page where
  server : Trees.Tree (List Char)
  items : List Item
  nextKey : Nat

inductive Request where
  | list (path : String)
  | openFile (path : String)
  | delete (path : String)
  | rename (parentDir oldName newName : String)
  | create (parentDir type : String)
  | upload (parentPath : String)
deriving DecidableEq

inductive Event where
  | startRename (key : Nat)
  | type (key : Nat) (text : String)
  | leave (key : Nat)
  | confirm (key : Nat)
  /-- A directory is clicked. -/
  | expand (key : Nat)
  /-- A file is clicked. -/
  | openFile (key : Nat)
  | delete (key : Nat)
  /-- A file, a notebook or a directory is added, with the name that the server gives it. -/
  | add (key : Nat) (contentType : String) (name : List Char)
  /-- The dialog for an upload is opened, and a file is sent. -/
  | upload (key : Nat) (filename : List Char)

/-- The item that an event happens to. -/
def Event.key : Event → Nat
  | .startRename key | .type key _ | .leave key | .confirm key | .expand key | .openFile key | .delete key | .add key _ _
  | .upload key _ => key

/-! ## Items -/

/-- The path of an entry that the server lists. -/
def childPath (dir name : String) : String := if dir = "" then name else dir ++ "/" ++ name

def mountItem (ancestors : List Nat) (dir : String) (key : Nat) (found : Entry (List Char) × List Char) : Item :=
  let name := String.ofList found.2
  ⟨key,ancestors,found.1.id,found.1.isDir,dir,childPath dir name,name,name,name,false,false⟩

/-- The items of the entries that the server lists. -/
def mount (ancestors : List Nat) (dir : String) (key : Nat) (found : List (Entry (List Char) × List Char)) : List Item :=
  found.zipIdx.map (fun c => mountItem ancestors dir (key + c.2) c.1)

def getPath (item : Item) : String :=
  if item.parentDir = "" then item.text else item.parentDir ++ "/" ++ item.text

/-- The name that was typed is that of the content. -/
def confirmed (item : Item) : Item := { item with contentName := item.text, isEditing := false }

def toggled (item : Item) : Item := { item with isCollapsed := !item.isCollapsed }

def Page.update (page : Page) (key : Nat) (change : Item → Item) : Page :=
  { page with items := page.items.map (fun item => if item.key = key then change item else item) }

/-- The page without what is shown in a directory. -/
def Page.unmount (page : Page) (key : Nat) : Page :=
  { page with items := page.items.filter (fun item => key ∉ item.ancestors) }

/-- What the server lists for a directory takes the place of what was shown in it. -/
def Page.setContent (page : Page) (item : Item) (isCollapsed : Bool) : Page :=
  let found := children (names item.path) page.server
  let unmounted := page.unmount item.key
  if isCollapsed then
    { unmounted with
      items := unmounted.items ++ mount (item.key :: item.ancestors) item.path page.nextKey found
      nextKey := page.nextKey + found.length }
  else unmounted

/-- The page after an event that happens to an item, and the request that is sent. -/
def handle (page : Page) (item : Item) : Event → Page × Option Request
  | .startRename _ => (page.update item.key (fun item => { item with isEditing := true }),none)
  | .type _ text =>
    if item.isEditing then (page.update item.key (fun item => { item with text := text }),none) else (page,none)
  | .leave _ => (page.update item.key (fun item => { item with isEditing := false }),none)
  | .confirm _ =>
    if item.isEditing then
      let renamed := rename (names item.parentDir ++ names item.contentName) (names item.parentDir ++ names item.text) page.server
      (({ page with server := renamed }).update item.key confirmed,
        some (.rename item.parentDir item.contentName item.text))
    else (page,none)
  | .expand _ =>
    if item.isDir then
      ((page.update item.key toggled).setContent (toggled item) (toggled item).isCollapsed,some (.list item.path))
    else (page,none)
  | .openFile _ => if item.isDir then (page,none) else (page,some (.openFile (getPath item)))
  | .delete _ =>
    -- a directory is deleted at the path it was listed with
    let path := if item.isDir then item.path else getPath item
    ({ page with
        server := remove (names path) page.server
        items := (page.unmount item.key).items.filter (fun other => other.key ≠ item.key) },
      some (.delete path))
  | .add _ contentType name =>
    if item.isDir then
      (({ page with server := add (names item.path ++ [name]) (contentType = "directory") page.server }).setContent item
          item.isCollapsed,
        some (.create item.path contentType))
    else (page,none)
  | .upload _ filename =>
    if item.isDir then
      ({ page with server := add (names item.path ++ [filename]) false page.server },some (.upload item.path))
    else (page,none)

/-- The page after an event, and the request with the entry that it was meant for. -/
def step (page : Page) (e : Event) : Page × Option (Nat × Request) :=
  match page.items.find? (fun item => item.key = e.key) with
  | none => (page,none)
  | some item => ((handle page item e).1,(handle page item e).2.map (fun request => (item.entry,request)))

/-- The explorer once it has listed the files of the project. -/
def start (server : Trees.Tree (List Char)) : Page :=
  let found := children [] server
  ⟨server,mount [] "" 0 found,found.length⟩

/-! ## What requests are to name -/

/-- The entry is where the request says. -/
def Targets (server : Trees.Tree (List Char)) (entry : Nat) : Request → Prop
  | .list _ => True
  | .openFile path | .delete path | .create path _ | .upload path => At server entry (names path)
  | .rename parentDir oldName _ => At server entry (names parentDir ++ names oldName)

/-- The request that is sent names the entry that it was meant for. -/
def Right (page : Page) (e : Event) : Prop := ∀ sent ∈ (step page e).2, Targets page.server sent.1 sent.2

/-- The name is the one that the item was listed with. -/
def Unrenamed (item : Item) : Prop := names item.contentName = names item.name

/-- No directory around the item was renamed since it was listed. -/
def UnrenamedAbove (page : Page) (item : Item) : Prop :=
  ∀ dir ∈ page.items, dir.key ∈ item.ancestors → Unrenamed dir

/-- What is asked of an event that happens to an item. -/
def GoodFor (page : Page) (item : Item) : Event → Prop
  | .startRename _ | .type _ _ | .leave _ => True
  | .confirm _ => item.isEditing = true → UnrenamedAbove page item ∧
    -- the new name is a single one, and not taken
    (names item.text).length = 1 ∧
    Free (names item.parentDir ++ names item.contentName) (names item.parentDir ++ names item.text) page.server
  | .openFile _ => item.isDir = false → UnrenamedAbove page item ∧ names item.text = names item.contentName
  | .delete _ => UnrenamedAbove page item ∧
    if item.isDir then Unrenamed item else names item.text = names item.contentName
  | .expand _ => item.isDir = true → UnrenamedAbove page item ∧ Unrenamed item
  | .add _ _ name | .upload _ name => item.isDir = true → UnrenamedAbove page item ∧ Unrenamed item ∧ Name name

instance (page : Page) (item : Item) : Decidable (UnrenamedAbove page item) :=
  inferInstanceAs (Decidable (∀ dir ∈ page.items, dir.key ∈ item.ancestors → names dir.contentName = names dir.name))

instance (old new : List (List Char)) (server : Trees.Tree (List Char)) : Decidable (Free old new server) :=
  inferInstanceAs (Decidable (∀ e ∈ server.entries, new <+: e.place → new = old))

instance (item : Item) : Decidable (Unrenamed item) :=
  inferInstanceAs (Decidable (names item.contentName = names item.name))

instance (page : Page) (item : Item) : (e : Event) → Decidable (GoodFor page item e)
  | .startRename _ | .type _ _ | .leave _ => inferInstanceAs (Decidable True)
  | .confirm _ => inferInstanceAs (Decidable (item.isEditing = true → UnrenamedAbove page item ∧
      (names item.text).length = 1 ∧ Free (names item.parentDir ++ names item.contentName)
        (names item.parentDir ++ names item.text) page.server))
  | .openFile _ => inferInstanceAs (Decidable (item.isDir = false → UnrenamedAbove page item ∧
      names item.text = names item.contentName))
  | .delete _ => inferInstanceAs (Decidable (UnrenamedAbove page item ∧
      if item.isDir then Unrenamed item else names item.text = names item.contentName))
  | .expand _ => inferInstanceAs (Decidable (item.isDir = true → UnrenamedAbove page item ∧ Unrenamed item))
  | .add _ _ name | .upload _ name =>
    inferInstanceAs (Decidable (item.isDir = true → UnrenamedAbove page item ∧ Unrenamed item ∧ Name name))

def Good (page : Page) (e : Event) : Prop := ∀ item ∈ page.items, item.key = e.key → GoodFor page item e

instance (page : Page) (e : Event) : Decidable (Good page e) :=
  inferInstanceAs (Decidable (∀ item ∈ page.items, item.key = e.key → GoodFor page item e))

/-- A server whose entries have ids, places and names. -/
structure Stored (server : Trees.Tree (List Char)) : Prop where
  valid : Valid server
  named : ∀ e ∈ server.entries, ∀ n ∈ e.place, Name n

/-! ## Items and their entries -/

theorem names_childPath (dir name : String) : names (childPath dir name) = names dir ++ names name := by
  unfold childPath
  split_ifs with root
  · rw [root,names_empty,List.nil_append]
  · exact names_slash dir name

theorem names_getPath (item : Item) : names (getPath item) = names item.parentDir ++ names item.text :=
  names_childPath item.parentDir item.text

/-- What an item shows: an entry of the directory that the item around it shows. -/
structure Shown (page : Page) (item : Item) : Prop where
  listed : ∃ n, names item.name = [n]
  named : ∃ n, names item.contentName = [n]
  path : names item.path = names item.parentDir ++ names item.name
  place : (item.ancestors = [] ∧ item.parentDir = "" ∧ At page.server item.entry (names item.contentName)) ∨
    ∃ dir ∈ page.items, item.ancestors = dir.key :: dir.ancestors ∧ item.parentDir = dir.path ∧
      ∃ place, At page.server dir.entry place ∧ At page.server item.entry (place ++ names item.contentName)

structure Inv (page : Page) : Prop where
  stored : Stored page.server
  keys : (page.items.map Item.key).Nodup
  below : ∀ item ∈ page.items, item.key < page.nextKey
  entries : (page.items.map Item.entry).Nodup
  shown : ∀ item ∈ page.items, Shown page item

section
variable {page : Page} {item : Item}

/-- The items around an item are less deep. -/
theorem Inv.around (inv : Inv page) (member : item ∈ page.items) {key : Nat} (above : key ∈ item.ancestors) :
    ∃ dir ∈ page.items, dir.key = key ∧ dir.ancestors.length < item.ancestors.length := by
  induction depth : item.ancestors.length generalizing item with
  | zero =>
    rw [List.length_eq_zero_iff.mp depth] at above
    cases above
  | succ n ih =>
    rcases (inv.shown item member).place with ⟨ancestors,-⟩ | ⟨dir,there,ancestors,-⟩
    · rw [ancestors] at above
      cases above
    · have dirDepth : dir.ancestors.length = n := by simpa [ancestors] using depth
      rw [ancestors] at above
      rcases List.mem_cons.mp above with rfl | further
      · exact ⟨dir,there,rfl,by omega⟩
      · obtain ⟨other,otherMember,same,less⟩ := ih there further dirDepth
        exact ⟨other,otherMember,same,by omega⟩

theorem Inv.not_around (inv : Inv page) (member : item ∈ page.items) : item.key ∉ item.ancestors := by
  intro inside
  obtain ⟨dir,there,same,less⟩ := inv.around member inside
  rw [List.inj_on_of_nodup_map inv.keys there member same] at less
  exact lt_irrefl _ less

/-- Where no directory around an item was renamed, its entry is at the path it is shown with. -/
theorem Inv.place (inv : Inv page) (member : item ∈ page.items) (unrenamed : UnrenamedAbove page item) :
    At page.server item.entry (names item.parentDir ++ names item.contentName) := by
  induction depth : item.ancestors.length generalizing item with
  | zero =>
    rcases (inv.shown item member).place with ⟨-,root,here⟩ | ⟨dir,-,ancestors,-⟩
    · rwa [root,names_empty,List.nil_append]
    · rw [ancestors] at depth
      cases depth
  | succ n ih =>
    rcases (inv.shown item member).place with ⟨ancestors,-⟩ | ⟨dir,there,ancestors,parent,place,dirPlace,here⟩
    · rw [ancestors] at depth
      cases depth
    · have dirUnrenamed : UnrenamedAbove page dir := by
        intro other otherMember above
        exact unrenamed other otherMember (ancestors ▸ List.mem_cons_of_mem _ above)
      have found := ih there dirUnrenamed (by simpa [ancestors] using depth)
      have same : Unrenamed dir := unrenamed dir there (ancestors ▸ List.mem_cons_self)
      rw [same,← (inv.shown dir there).path] at found
      rwa [parent,found.place_eq inv.stored.valid dirPlace]

/-- An item that was not renamed either has its entry at the path it was listed with. -/
theorem Inv.path (inv : Inv page) (member : item ∈ page.items) (unrenamed : UnrenamedAbove page item)
    (same : Unrenamed item) : At page.server item.entry (names item.path) := by
  have here := inv.place member unrenamed
  rwa [same,← (inv.shown item member).path] at here

theorem Inv.getPath (inv : Inv page) (member : item ∈ page.items) (unrenamed : UnrenamedAbove page item)
    (confirmed : names item.text = names item.contentName) : At page.server item.entry (names (getPath item)) := by
  rw [names_getPath,confirmed]
  exact inv.place member unrenamed

theorem right_of_good (page : Page) (e : Event) (inv : Inv page) (good : Good page e) : Right page e := by
  unfold Right step
  cases found : page.items.find? (fun item => item.key = e.key) with
  | none =>
    intro sent nothing
    cases nothing
  | some item =>
    have member := List.mem_of_find?_eq_some found
    have goodFor := good item member (by simpa using List.find?_some found)
    intro sent isSent
    obtain ⟨request,handled,rfl⟩ := Option.map_eq_some_iff.mp isSent
    cases e with
    | startRename key => cases handled
    | type key text =>
      simp only [handle] at handled
      split_ifs at handled
    | leave key => cases handled
    | confirm key =>
      simp only [handle] at handled
      split_ifs at handled with editing
      obtain rfl := Option.some.inj handled
      exact inv.place member (goodFor editing).1
    | expand key =>
      simp only [handle] at handled
      split_ifs at handled
      obtain rfl := Option.some.inj handled
      trivial
    | openFile key =>
      simp only [handle] at handled
      split_ifs at handled with file
      obtain rfl := Option.some.inj handled
      obtain ⟨unrenamed,confirmed⟩ := goodFor (by simpa using file)
      exact inv.getPath member unrenamed confirmed
    | delete key =>
      obtain rfl := Option.some.inj handled
      obtain ⟨unrenamed,confirmed⟩ := goodFor
      dsimp only [Targets]
      split_ifs at confirmed ⊢
      · exact inv.path member unrenamed confirmed
      · exact inv.getPath member unrenamed confirmed
    | add key contentType name =>
      simp only [handle] at handled
      split_ifs at handled with dir
      obtain rfl := Option.some.inj handled
      obtain ⟨unrenamed,same,-⟩ := goodFor dir
      exact inv.path member unrenamed same
    | upload key filename =>
      simp only [handle] at handled
      split_ifs at handled with dir
      obtain rfl := Option.some.inj handled
      obtain ⟨unrenamed,same,-⟩ := goodFor dir
      exact inv.path member unrenamed same

/-! ## Changes to the page -/

/-- What an item shows of its entry does not depend on the rest of it. -/
def core (item : Item) : Nat × List Nat × Nat × String × String × String × String :=
  (item.key,item.ancestors,item.entry,item.parentDir,item.path,item.name,item.contentName)

theorem shown_congr {after : Page} {other : Item} (shown : Shown page item)
    (kept : ∀ id place, At page.server id place → At after.server id place)
    (items : ∀ dir ∈ page.items, item.ancestors = dir.key :: dir.ancestors → ∃ same ∈ after.items, core same = core dir)
    (same : core other = core item) : Shown after other := by
  simp only [core,Prod.mk.injEq] at same
  obtain ⟨-,ancestors,entry,parentDir,path,name,contentName⟩ := same
  refine ⟨name ▸ shown.listed,contentName ▸ shown.named,?_,?_⟩
  · rw [path,parentDir,name]
    exact shown.path
  · rw [ancestors,parentDir,entry,contentName]
    refine shown.place.imp ?_ ?_
    · rintro ⟨root,parent,here⟩
      exact ⟨root,parent,kept _ _ here⟩
    · rintro ⟨dir,there,around,parent,place,dirPlace,here⟩
      obtain ⟨sameDir,member,sameCore⟩ := items dir there around
      simp only [core,Prod.mk.injEq] at sameCore
      obtain ⟨dirKey,dirAncestors,dirEntry,-,dirPath,-⟩ := sameCore
      refine ⟨sameDir,member,?_,dirPath ▸ parent,place,dirEntry ▸ kept _ _ dirPlace,kept _ _ here⟩
      rw [dirKey,dirAncestors]
      exact around

/-- What a change leaves of each item it leaves of them all. -/
theorem map_update {Read : Type} {read : Item → Read} (key : Nat) {change : Item → Item}
    (same : ∀ item, read (change item) = read item) :
    (page.update key change).items.map read = page.items.map read := by
  simp only [Page.update,List.map_map]
  refine List.map_congr_left ?_
  intro item _
  dsimp only [Function.comp]
  split_ifs
  · exact same item
  · rfl

/-- A change to what an item does not show of its entry. -/
theorem Inv.update (inv : Inv page) (key : Nat) {change : Item → Item} (same : ∀ item, core (change item) = core item) :
    Inv (page.update key change) := by
  have cores : ∀ item, core (if item.key = key then change item else item) = core item := by
    intro item
    split_ifs
    · exact same item
    · rfl
  refine ⟨inv.stored,?_,?_,?_,?_⟩
  · rw [map_update key (fun item => congrArg Prod.fst (same item))]
    exact inv.keys
  · intro item member
    obtain ⟨old,there,rfl⟩ := List.mem_map.mp member
    have sameKey : (if old.key = key then change old else old).key = old.key := congrArg Prod.fst (cores old)
    rw [sameKey]
    exact inv.below old there
  · rw [map_update key (fun item => congrArg (fun c => c.2.2.1) (same item))]
    exact inv.entries
  · intro item member
    obtain ⟨old,there,rfl⟩ := List.mem_map.mp member
    refine shown_congr (inv.shown old there) (fun _ _ here => here) ?_ (cores old)
    intro dir dirMember _
    exact ⟨_,List.mem_map_of_mem dirMember,cores dir⟩

/-- The server has all entries that it had, and possibly more. -/
theorem Inv.served (inv : Inv page) {server : Trees.Tree (List Char)} (stored : Stored server)
    (kept : ∀ id place, At page.server id place → At server id place) : Inv { page with server := server } := by
  refine ⟨stored,inv.keys,inv.below,inv.entries,?_⟩
  intro item member
  refine shown_congr (inv.shown item member) kept ?_ rfl
  intro dir there _
  exact ⟨dir,there,rfl⟩

theorem Stored.add {server : Trees.Tree (List Char)} (stored : Stored server) {place : List (List Char)}
    (named : ∀ n ∈ place, Name n) (isDir : Bool) : Stored (add place isDir server) := by
  refine ⟨stored.valid.add place isDir,?_⟩
  unfold Trees.add
  split_ifs
  · exact stored.named
  · intro e member
    rcases List.mem_append.mp member with old | new
    · exact stored.named e old
    · obtain rfl := List.mem_singleton.mp new
      exact named

theorem Inv.added (inv : Inv page) (path : String) {name : List Char} (isName : Name name) (isDir : Bool) :
    Inv { page with server := add (names path ++ [name]) isDir page.server } := by
  apply inv.served
  · apply inv.stored.add
    intro n member
    rcases List.mem_append.mp member with inPath | last
    · exact names_name path n inPath
    · exact List.mem_singleton.mp last ▸ isName
  · intro id place here
    exact here.add _ _

/-- Items go together with all that is shown in them. -/
theorem Inv.filter (inv : Inv page) (keep : Item → Bool)
    (closed : ∀ item ∈ page.items, ∀ dir ∈ page.items, item.ancestors = dir.key :: dir.ancestors → keep item → keep dir) :
    Inv { page with items := page.items.filter keep } := by
  have sub : List.Sublist (page.items.filter keep) page.items := List.filter_sublist
  refine ⟨inv.stored,inv.keys.sublist (sub.map _),fun item member => inv.below item (sub.subset member),
    inv.entries.sublist (sub.map _),?_⟩
  intro item member
  obtain ⟨there,kept⟩ := List.mem_filter.mp member
  refine shown_congr (inv.shown item there) (fun _ _ here => here) ?_ rfl
  intro dir dirMember around
  exact ⟨dir,List.mem_filter.mpr ⟨dirMember,closed item there dir dirMember around kept⟩,rfl⟩

theorem Inv.unmount (inv : Inv page) (key : Nat) : Inv (page.unmount key) := by
  apply inv.filter
  intro item _ dir _ around kept
  simp only [decide_eq_true_eq] at kept ⊢
  intro inside
  exact kept (around ▸ List.mem_cons_of_mem _ inside)

/-! ## Mounting -/

/-- Items are mounted for what a directory has, of which nothing is shown. -/
theorem Inv.mounted (inv : Inv page) {ancestors : List Nat} {dir : String}
    (around : (ancestors = [] ∧ dir = "") ∨
      ∃ item ∈ page.items, ancestors = item.key :: item.ancestors ∧ dir = item.path ∧
        At page.server item.entry (names item.path))
    (apart : ∀ item ∈ page.items, ∀ c ∈ children (names dir) page.server, item.entry ≠ c.1.id) :
    Inv { page with
      items := page.items ++ mount ancestors dir page.nextKey (children (names dir) page.server)
      nextKey := page.nextKey + (children (names dir) page.server).length } := by
  have mounted : ∀ item ∈ mount ancestors dir page.nextKey (children (names dir) page.server),
      ∃ c ∈ children (names dir) page.server, ∃ i < (children (names dir) page.server).length,
        item = mountItem ancestors dir (page.nextKey + i) c := by
    intro item member
    obtain ⟨⟨c,i⟩,there,rfl⟩ := List.mem_map.mp member
    refine ⟨c,List.fst_mem_of_mem_zipIdx there,i,?_,rfl⟩
    simpa using List.snd_lt_of_mem_zipIdx there
  have entries : (mount ancestors dir page.nextKey (children (names dir) page.server)).map Item.entry =
      (children (names dir) page.server).map (fun c => c.1.id) := by
    simp only [mount,List.map_map]
    rw [← List.zipIdx_map_fst 0 (children (names dir) page.server),List.map_map,List.zipIdx_map_fst]
    rfl
  have keys : (mount ancestors dir page.nextKey (children (names dir) page.server)).map Item.key =
      (List.range' 0 (children (names dir) page.server).length).map (fun i => page.nextKey + i) := by
    rw [← List.zipIdx_map_snd 0]
    simp only [mount,List.map_map]
    rfl
  refine ⟨inv.stored,?_,?_,?_,?_⟩
  · rw [List.map_append,keys,List.nodup_append]
    refine ⟨inv.keys,List.Nodup.map (fun i j same => Nat.add_left_cancel same) List.nodup_range',?_⟩
    intro key old other new same
    obtain ⟨item,there,rfl⟩ := List.mem_map.mp old
    obtain ⟨i,-,rfl⟩ := List.mem_map.mp new
    have below := inv.below item there
    omega
  · intro item member
    rcases List.mem_append.mp member with old | new
    · exact (inv.below item old).trans_le (Nat.le_add_right _ _)
    · obtain ⟨c,-,i,inside,rfl⟩ := mounted item new
      exact Nat.add_lt_add_left inside _
  · rw [List.map_append,entries,List.nodup_append]
    refine ⟨inv.entries,children_nodup inv.stored.valid _,?_⟩
    intro id old other new same
    obtain ⟨item,there,rfl⟩ := List.mem_map.mp old
    obtain ⟨c,child,rfl⟩ := List.mem_map.mp new
    exact apart item there c child same
  · intro item member
    rcases List.mem_append.mp member with old | new
    · refine shown_congr (inv.shown item old) (fun _ _ here => here) ?_ rfl
      intro dir there _
      exact ⟨dir,List.mem_append_left _ there,rfl⟩
    · obtain ⟨⟨e,n⟩,child,i,-,rfl⟩ := mounted item new
      have name : Name n := by
        obtain ⟨there,within⟩ := mem_children.mp child
        exact inv.stored.named e there n (by rw [within]; simp)
      have single : names (String.ofList n) = [n] := names_single name
      refine ⟨⟨n,single⟩,⟨n,single⟩,names_childPath _ _,?_⟩
      have here : At page.server e.id (names dir ++ names (String.ofList n)) := single ▸ At.of_child child
      rcases around with ⟨root,rfl⟩ | ⟨parent,there,inside,rfl,place⟩
      · refine .inl ⟨root,rfl,?_⟩
        simpa [mountItem] using here
      · exact .inr ⟨parent,List.mem_append_left _ there,inside,rfl,names parent.path,place,here⟩

/-- A directory that is listed anew shows what it has. -/
theorem Inv.setContent (inv : Inv page) (member : item ∈ page.items)
    (place : At page.server item.entry (names item.path)) (isCollapsed : Bool) :
    Inv (page.setContent item isCollapsed) := by
  unfold Page.setContent
  have unmounted := inv.unmount item.key
  split_ifs
  · have stays : item ∈ (page.unmount item.key).items := by
      refine List.mem_filter.mpr ⟨member,?_⟩
      simpa using inv.not_around member
    apply unmounted.mounted
    · exact .inr ⟨item,stays,rfl,rfl,place⟩
    · intro other kept c child same
      obtain ⟨there,outside⟩ := List.mem_filter.mp kept
      simp only [decide_eq_true_eq] at outside
      have childPlace : At page.server other.entry (names item.path ++ [c.2]) := by
        rw [same]
        exact At.of_child child
      obtain ⟨n,named⟩ := (inv.shown other there).named
      rcases (inv.shown other there).place with ⟨root,-,here⟩ | ⟨dir,dirMember,around,-,dirPlace,isAt,here⟩
      · obtain ⟨m,listed⟩ := (inv.shown item member).listed
        have places := here.place_eq inv.stored.valid childPlace
        rw [named,(inv.shown item member).path,listed] at places
        have lengths := congrArg List.length places
        simp at lengths
      · rw [named] at here
        obtain ⟨rfl,-⟩ := List.append_inj' (here.place_eq inv.stored.valid childPlace) rfl
        have sameEntry := isAt.id_eq inv.stored.valid place
        have sameDir : dir = item := List.inj_on_of_nodup_map inv.entries dirMember member sameEntry
        exact outside (sameDir ▸ around ▸ List.mem_cons_self)
  · exact unmounted

/-! ## Deleting and renaming -/

/-- The item is deleted with its entry, and what is shown in it goes with it. -/
theorem Inv.deleted (inv : Inv page) (member : item ∈ page.items) {place : List (List Char)}
    (here : At page.server item.entry place) :
    Inv { page with
      server := remove place page.server
      items := (page.unmount item.key).items.filter (fun other => other.key ≠ item.key) } := by
  have left : Inv { page with items := (page.unmount item.key).items.filter (fun other => other.key ≠ item.key) } := by
    apply (inv.unmount item.key).filter
    intro other otherMember dir _ around _
    have outside := (List.mem_filter.mp otherMember).2
    simp only [decide_eq_true_eq,around,List.mem_cons,not_or] at outside ⊢
    exact Ne.symm outside.1
  have others : ∀ other ∈ (page.unmount item.key).items.filter (fun other => other.key ≠ item.key),
      ∀ otherPlace, At page.server other.entry otherPlace → At (remove place page.server) other.entry otherPlace := by
    intro other kept otherPlace isAt
    obtain ⟨unmounted,different⟩ := List.mem_filter.mp kept
    apply isAt.remove
    rintro rfl
    have same := isAt.id_eq inv.stored.valid here
    have there := (List.mem_filter.mp unmounted).1
    exact absurd (congrArg Item.key (List.inj_on_of_nodup_map inv.entries there member same)) (by simpa using different)
  refine ⟨⟨inv.stored.valid.remove place,?_⟩,left.keys,left.below,left.entries,?_⟩
  · intro e removed
    exact inv.stored.named e (List.mem_filter.mp removed).1
  · intro other kept
    have shown := left.shown other kept
    refine ⟨shown.listed,shown.named,shown.path,shown.place.imp ?_ ?_⟩
    · rintro ⟨root,parent,isAt⟩
      exact ⟨root,parent,others other kept _ isAt⟩
    · rintro ⟨dir,dirKept,around,parent,dirPlace,dirAt,isAt⟩
      exact ⟨dir,dirKept,around,parent,dirPlace,others dir dirKept _ dirAt,others other kept _ isAt⟩

theorem Stored.rename {server : Trees.Tree (List Char)} (stored : Stored server) {old new : List (List Char)}
    (free : Free old new server) (named : ∀ n ∈ new, Name n) : Stored (rename old new server) := by
  refine ⟨stored.valid.rename free,?_⟩
  intro e renamed n inPlace
  rw [rename_entries free] at renamed
  obtain ⟨before,there,rfl⟩ := List.mem_map.mp renamed
  dsimp only [moved] at inPlace
  split_ifs at inPlace
  · rcases List.mem_append.mp inPlace with start | rest
    · exact named n start
    · exact stored.named before there n (List.mem_of_mem_drop rest)
  · exact stored.named before there n inPlace

/-- The page once the server has renamed the entry of an item. -/
def Page.renamed (page : Page) (item : Item) : Page :=
  { page with
    server := rename (names item.parentDir ++ names item.contentName) (names item.parentDir ++ names item.text) page.server }

theorem confirmed_around (key : Nat) {dir : Item} (there : dir ∈ page.items) :
    ∃ same ∈ (page.update key confirmed).items, same.key = dir.key ∧ same.ancestors = dir.ancestors ∧
      same.entry = dir.entry ∧ same.path = dir.path := by
  refine ⟨_,List.mem_map_of_mem there,?_⟩
  split_ifs <;> exact ⟨rfl,rfl,rfl,rfl⟩

/-- What is not deeper than the directory of an item is not moved with it. -/
theorem Inv.moved_short (inv : Inv page) (member : item ∈ page.items) {place : List (List Char)}
    (short : place.length ≤ (names item.parentDir).length) :
    moved (names item.parentDir ++ names item.contentName) (names item.parentDir ++ names item.text) place = place := by
  obtain ⟨n,named⟩ := (inv.shown item member).named
  apply moved_of_not_prefix
  intro within
  have longer := within.length_le
  rw [named,List.length_append,List.length_singleton] at longer
  omega

theorem Inv.renamed_item (inv : Inv page) (member : item ∈ page.items) (unrenamed : UnrenamedAbove page item)
    (single : (names item.text).length = 1)
    (free : Free (names item.parentDir ++ names item.contentName) (names item.parentDir ++ names item.text) page.server) :
    Shown ((page.renamed item).update item.key confirmed) (confirmed item) := by
  have isAt := inv.place member unrenamed
  have shown := inv.shown item member
  have moves := isAt.rename free
  rw [moved_self] at moves
  refine ⟨shown.listed,List.length_eq_one_iff.mp single,shown.path,?_⟩
  rcases shown.place with ⟨root,parent,-⟩ | ⟨dir,dirMember,inside,parent,place,dirAt,itemAt⟩
  · refine .inl ⟨root,parent,?_⟩
    have new : names item.parentDir ++ names item.text = names item.text := by
      rw [parent,names_empty,List.nil_append]
    exact (congrArg (At _ item.entry) new).mp moves
  · have base : place = names item.parentDir := List.append_cancel_right (itemAt.place_eq inv.stored.valid isAt)
    obtain ⟨same,sameMember,key,ancestors,entry,path⟩ := @confirmed_around (page.renamed item) item.key dir dirMember
    refine .inr ⟨same,sameMember,?_,?_,place,?_,?_⟩
    · rw [key,ancestors]
      exact inside
    · rw [path]
      exact parent
    · have dirMoves := dirAt.rename free
      rw [inv.moved_short member (by rw [base])] at dirMoves
      rw [entry]
      exact dirMoves
    · rw [base]
      exact moves

theorem Inv.renamed_other (inv : Inv page) (member : item ∈ page.items) (unrenamed : UnrenamedAbove page item)
    (free : Free (names item.parentDir ++ names item.contentName) (names item.parentDir ++ names item.text) page.server)
    {other : Item} (there : other ∈ page.items) (different : other.key ≠ item.key) :
    Shown ((page.renamed item).update item.key confirmed) other := by
  have apart : ∀ place, At page.server other.entry place → place ≠ names item.parentDir ++ names item.contentName := by
    rintro place otherAt rfl
    have same := otherAt.id_eq inv.stored.valid (inv.place member unrenamed)
    exact different (congrArg Item.key (List.inj_on_of_nodup_map inv.entries there member same))
  have shown := inv.shown other there
  obtain ⟨m,named⟩ := shown.named
  refine ⟨shown.listed,shown.named,shown.path,?_⟩
  rcases shown.place with ⟨root,parent,isAt⟩ | ⟨dir,dirMember,inside,parent,place,dirAt,isAt⟩
  · refine .inl ⟨root,parent,?_⟩
    have moves := isAt.rename free
    have notItem := apart _ isAt
    rw [named] at moves notItem ⊢
    rw [← List.nil_append [m],moved_append m notItem,inv.moved_short member (Nat.zero_le _)] at moves
    exact moves
  · obtain ⟨same,sameMember,key,ancestors,entry,path⟩ := @confirmed_around (page.renamed item) item.key dir dirMember
    have moves := isAt.rename free
    have notItem := apart _ isAt
    rw [named] at moves notItem ⊢
    rw [moved_append m notItem] at moves
    refine .inr ⟨same,sameMember,?_,?_,_,?_,moves⟩
    · rw [key,ancestors]
      exact inside
    · rw [path]
      exact parent
    · rw [entry]
      exact dirAt.rename free

/-- The item is renamed, to a single name that is free: all that is below its entry moves. -/
theorem Inv.renamed (inv : Inv page) (member : item ∈ page.items) (unrenamed : UnrenamedAbove page item)
    (single : (names item.text).length = 1)
    (free : Free (names item.parentDir ++ names item.contentName) (names item.parentDir ++ names item.text) page.server) :
    Inv ((page.renamed item).update item.key confirmed) := by
  refine ⟨?_,?_,?_,?_,?_⟩
  · apply inv.stored.rename free
    intro m inPlace
    rcases List.mem_append.mp inPlace with dir | text
    · exact names_name _ m dir
    · exact names_name _ m text
  · rw [map_update item.key (show ∀ item, (confirmed item).key = item.key from fun _ => rfl)]
    exact inv.keys
  · intro other renamed
    obtain ⟨old,there,rfl⟩ := List.mem_map.mp renamed
    have below := inv.below old there
    split_ifs <;> exact below
  · rw [map_update item.key (show ∀ item, (confirmed item).entry = item.entry from fun _ => rfl)]
    exact inv.entries
  · intro other renamed
    obtain ⟨old,there,rfl⟩ := List.mem_map.mp renamed
    split_ifs with here
    · obtain rfl := List.inj_on_of_nodup_map inv.keys there member here
      exact inv.renamed_item member unrenamed single free
    · exact inv.renamed_other member unrenamed free there here

/-! ## Runs -/

theorem step_keeps (page : Page) (e : Event) (inv : Inv page) (good : Good page e) : Inv (step page e).1 := by
  unfold step
  cases found : page.items.find? (fun item => item.key = e.key) with
  | none => exact inv
  | some item =>
    have member := List.mem_of_find?_eq_some found
    have goodFor := good item member (by simpa using List.find?_some found)
    dsimp only
    cases e with
    | startRename key => exact inv.update _ (fun _ => rfl)
    | type key text =>
      dsimp only [handle]
      split_ifs
      · exact inv.update _ (fun _ => rfl)
      · exact inv
    | leave key => exact inv.update _ (fun _ => rfl)
    | confirm key =>
      dsimp only [handle]
      split_ifs with editing
      · obtain ⟨unrenamed,single,free⟩ := goodFor editing
        exact inv.renamed member unrenamed single free
      · exact inv
    | expand key =>
      dsimp only [handle]
      split_ifs with dir
      · obtain ⟨unrenamed,same⟩ := goodFor dir
        have there : toggled item ∈ (page.update item.key toggled).items := by
          refine List.mem_map.mpr ⟨item,member,?_⟩
          rw [if_pos rfl]
        have kept := inv.update item.key (show ∀ item, core (toggled item) = core item from fun _ => rfl)
        have place := inv.path member unrenamed same
        exact kept.setContent there place _
      · exact inv
    | openFile key =>
      dsimp only [handle]
      split_ifs <;> exact inv
    | delete key =>
      obtain ⟨unrenamed,confirmed⟩ := goodFor
      apply inv.deleted member
      split_ifs at confirmed ⊢
      · exact inv.path member unrenamed confirmed
      · exact inv.getPath member unrenamed confirmed
    | add key contentType name =>
      dsimp only [handle]
      split_ifs with dir
      · obtain ⟨unrenamed,same,isName⟩ := goodFor dir
        apply (inv.added item.path isName _).setContent member
        exact (inv.path member unrenamed same).add _ _
      · exact inv
    | upload key filename =>
      dsimp only [handle]
      split_ifs with dir
      · exact inv.added item.path (goodFor dir).2.2 false
      · exact inv

theorem start_inv {server : Trees.Tree (List Char)} (stored : Stored server) : Inv (start server) := by
  have nothing : Inv (⟨server,[],0⟩ : Page) := by
    refine ⟨stored,List.nodup_nil,?_,List.nodup_nil,?_⟩
    · intro item member
      cases member
    · intro item member
      cases member
  have mounted := @Inv.mounted _ nothing [] "" (.inl ⟨rfl,rfl⟩) (fun item member => by cases member)
  simpa [start] using mounted

/-- In every run of good events from any tree of files, each request names the entry that
    it was meant for. -/
theorem requests_right (server : Trees.Tree (List Char)) (stored : Stored server) (events : List Event)
    (good : Meets step Good (start server) events) : Meets step Right (start server) events :=
  meets_of_meets right_of_good step_keeps (start_inv stored) good

end

/-- A directory with a file in it. -/
def project : Trees.Tree (List Char) := ⟨[⟨0,[['d']],true⟩,⟨1,[['d'],['a']],false⟩],2⟩

theorem project_stored : Stored project := by
  refine ⟨⟨by decide,by decide,by decide⟩,?_⟩
  decide

/-- The directory is expanded, and its file renamed and opened. -/
theorem renamed_right : Meets step Right (start project)
    [.expand 0,.startRename 1,.type 1 "b",.confirm 1,.openFile 1] := by
  apply requests_right project project_stored
  decide +kernel

/-- The directory is renamed and then deleted, at the path it had before. -/
theorem deletedOld_notRight : ¬ Meets step Right (start project)
    [.startRename 0,.type 0 "e",.confirm 0,.delete 0] := by
  rintro ⟨-,-,-,right,-⟩
  obtain ⟨e,member,id,place⟩ := right (0,.delete "d") rfl
  revert e
  decide

end Zasper.FileBrowser
