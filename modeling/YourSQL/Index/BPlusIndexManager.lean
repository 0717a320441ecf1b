import YourSQL.Buffer.BufferManager
import YourSQL.Index.IndexPage

/-! # The B+ tree

`BPlusIndexManager` on the buffer pool. The objects of the index pages are kept by page
id, whatever happens to the frames.
-/

namespace YourSQL

structure IndexRun (K V : Type) where
  pool : BufferManager
  rootPageId : Nat := INVALID_PAGE_ID
  objects : Nat → IndexObject K V := fun _ => {}

namespace IndexRun

variable {K V : Type}

abbrev Call (K V : Type) := Program (IndexRun K V) String

def onPool (x : BufferManager.Call α) : Call K V α :=
  ⟨fun s => ((x.run s.pool).1, { s with pool := (x.run s.pool).2 })⟩

theorem onPool_run (x : BufferManager.Call α) (s : IndexRun K V) :
    (onPool x).run s = ((x.run s.pool).1, { s with pool := (x.run s.pool).2 }) := rfl

theorem wp_onPool {x : BufferManager.Call α} {s : IndexRun K V} {post : α → IndexRun K V → Prop}
    {raised : String → IndexRun K V → Prop} :
    (onPool x).wp post raised s ↔
      x.wp (fun a pool => post a { s with pool := pool })
        (fun e pool => raised e { s with pool := pool }) s.pool := by
  simp only [Program.wp, onPool_run]
  rcases x.run s.pool with ⟨_ | _, _⟩ <;> rfl

/-- `page->id_` of a frame. -/
def pageId (s : IndexRun K V) (frame : Nat) : Nat := (s.pool.frames frame).id

/-- `Page::Reset`: the id goes with the bytes. -/
def reset (frame : Nat) : Call K V Unit :=
  modify fun s => { s with
    pool := s.pool.setFrame frame { s.pool.frames frame with id := 0, data := zeroPage } }

def setRoot (id : Nat) : Call K V Unit := modify fun s => { s with rootPageId := id }

/-- The page of an object that writes to it is dirty. -/
def markDirty (pool : BufferManager) (id : Nat) : BufferManager :=
  match pool.bufferPages id with
  | some frame => pool.setDirty frame true
  | none => pool

/-- A change of an object in its place. -/
def onObject (id : Nat) (change : IndexObject K V → Except String (IndexObject K V)) :
    Call K V Unit := do
  let object ← Program.lift (change ((← get).objects id))
  modify fun s => { s with
    pool := markDirty s.pool id
    objects := Function.update s.objects id object }

def newObject (type : IndexPageType) (parentId maxSize : Nat) : Call K V Nat := do
  let frame ← onPool BufferManager.newPage
  let id := (← get).pageId frame
  onObject id fun object => .ok (object.init type id parentId maxSize)
  return id

def updateParentId (id parentId : Nat) : Call K V Unit := do
  let _ ← onPool (BufferManager.fetchPage id)
  onObject id fun object => .ok (object.setParentPageId parentId)
  onPool (BufferManager.release id)

def getParentId (id : Nat) : Call K V Nat := do
  let _ ← onPool (BufferManager.fetchPage id)
  let parentId := ((← get).objects id).parentPageId
  onPool (BufferManager.release id)
  return parentId

variable [LinearOrder K] (types : IndexTypes)

/-- The loop of `FindLeafPage`, for so many levels. -/
def descend (key : K) (leafMost : Bool) : (levels id : Nat) → Call K V Nat
  | 0, _ => throw UNDEFINED
  | levels + 1, id => do
      let _ ← onPool (BufferManager.fetchPage id)
      let node := (← get).objects id
      if node.isLeafPage then
        onPool (BufferManager.release id)
        return id
      else
        let next ← Program.lift
          (if leafMost then (node.childAt 0).map Prod.snd else node.lookupChild key)
        onPool (BufferManager.release id)
        descend key leafMost levels next

def findLeafPage (key : K) (leafMost : Bool) : Call K V Nat := do
  let s ← get
  if s.rootPageId = INVALID_PAGE_ID then
    throw "BPlusInsertManager::FindLeafPage root_page_id is INVALID_PAGE_ID"
  else
    descend key leafMost s.pool.nextPageId s.rootPageId

def splitLeaf (leafId : Nat) : Call K V Nat := do
  let leaf := (← get).objects leafId
  let id ← newObject .leaf leaf.parentPageId (IndexObject.leafMaxSize types)
  let splitAt := leaf.getSize / 2
  ((List.range leaf.getSize).drop splitAt).forM fun index => do
    let entry ← Program.lift (leaf.entryAt index)
    onObject id fun object => (object.insert types entry.1 entry.2).map Prod.snd
  onObject leafId fun object => .ok (object.setSize splitAt)
  onObject id fun object => .ok (object.setNextPageId leaf.nextPageId)
  onObject leafId fun object => .ok (object.setNextPageId id)
  onPool (BufferManager.release id)
  return id

def splitInternal (internalId : Nat) : Call K V (K × Nat) := do
  let internal := (← get).objects internalId
  let id ← newObject .interval internal.parentPageId internal.maxSize
  let size := internal.getSize
  let splitAt := size / 2
  let middle ← Program.lift (internal.childAt splitAt)
  ((List.range size).drop splitAt).forM fun index => do
    let child ← Program.lift (internal.childAt index)
    onObject id fun object => object.setKeyAt (index - splitAt) child.1
    onObject id fun object => object.setValueAt (index - splitAt) child.2
    updateParentId child.2 id
  onObject id fun object => .ok (object.setSize (size - splitAt))
  onObject internalId fun object => .ok (object.setSize splitAt)
  onPool (BufferManager.release id)
  return (middle.1, id)

/-- `InsertInfoParent`, for so many levels. -/
def insertInfoParent : (levels oldPage : Nat) → (middleKey : K) → (newPage : Nat) → Call K V Unit
  | 0, _, _, _ => throw UNDEFINED
  | levels + 1, oldPage, middleKey, newPage => do
      let s ← get
      if oldPage = s.rootPageId then
        let id ← newObject .interval INVALID_PAGE_ID 0
        onObject id fun object => object.setValueAt 0 oldPage
        onObject id fun object => object.setKeyAt 1 middleKey
        onObject id fun object => object.setValueAt 1 newPage
        onObject id fun object => .ok (object.setSize 2)
        setRoot id
        updateParentId oldPage id
        updateParentId newPage id
        onPool (BufferManager.release id)
      else
        let parentId ← getParentId oldPage
        let _ ← onPool (BufferManager.fetchPage parentId)
        onObject parentId fun object => .ok (object.insertAfter oldPage middleKey newPage)
        let parent := (← get).objects parentId
        if parent.getSize ≥ parent.maxSize then
          let (upKey, upPage) ← splitInternal parentId
          insertInfoParent levels parent.pageId upKey upPage
        onPool (BufferManager.release parent.pageId)

/-- `Insert`. The first page is reset before its id is read. -/
def insert (key : K) (val : V) : Call K V Bool := do
  let s ← get
  if s.rootPageId = INVALID_PAGE_ID then
    let frame ← onPool BufferManager.newPage
    let id := (← get).pageId frame
    reset frame
    let rootId := (← get).pageId frame
    setRoot rootId
    onObject id fun object =>
      .ok (object.init .leaf rootId INVALID_PAGE_ID (IndexObject.leafMaxSize types))
    onObject id fun object => (object.insert types key val).map Prod.snd
    onPool (BufferManager.release rootId)
    return true
  else
    let leafId ← findLeafPage key false
    let _ ← onPool (BufferManager.fetchPage leafId)
    let (inserted, leaf) ← Program.lift (((← get).objects leafId).insert types key val)
    onObject leafId fun _ => .ok leaf
    if !inserted then
      onPool (BufferManager.release leafId)
      throw "BPlusIndexManager::Insert due key."
    if leaf.getSize ≥ IndexObject.leafMaxSize types then
      let newId ← splitLeaf types leafId
      let _ ← onPool (BufferManager.fetchPage newId)
      let middle ← Program.lift (((← get).objects newId).entryAt 0)
      onPool (BufferManager.release newId)
      insertInfoParent (← get).pool.nextPageId leafId middle.1 newId
    onPool (BufferManager.release leafId)
    return true

/-- `Get`: whether the key was found, and its values. -/
def lookup (key : K) : Call K V (Bool × List V) := do
  let s ← get
  if s.rootPageId = INVALID_PAGE_ID then
    return (false, [])
  else
    let id ← findLeafPage key false
    let _ ← onPool (BufferManager.fetchPage id)
    let found := ((← get).objects id).lookup key
    onPool (BufferManager.release id)
    return found

def adjustRoot (id : Nat) : Call K V Unit := do
  let root := (← get).objects id
  if root.isLeafPage && root.getSize == 0 then
    setRoot INVALID_PAGE_ID
    onPool (BufferManager.release root.pageId)
  else if !root.isLeafPage && root.getSize == 1 then
    let child ← Program.lift (root.childAt 0)
    setRoot child.2
    updateParentId child.2 INVALID_PAGE_ID
    onPool (BufferManager.release root.pageId)

/-- The separator of a child that is `found` in the parent. -/
def setSeparator (parentId childId : Nat) (key : K) : Call K V Unit := do
  let parent := (← get).objects parentId
  match (parent.children.take parent.getSize).findIdx? fun child => child.2 = childId with
  | none => return
  | some index => onObject parentId fun object => object.setKeyAt index key

def redistribute (siblingId nodeId parentId : Nat) (isLeftSibling : Bool) : Call K V Unit := do
  let sibling := (← get).objects siblingId
  let node := (← get).objects nodeId
  let moved := if isLeftSibling then sibling.getSize - 1 else 0
  if node.isLeafPage then
    let entry ← Program.lift (sibling.entryAt moved)
    onObject nodeId fun object => (object.insert types entry.1 entry.2).map Prod.snd
    onObject siblingId fun object => .ok (object.remove entry.1).2
    if isLeftSibling then
      let first ← Program.lift (((← get).objects nodeId).entryAt 0)
      setSeparator parentId node.pageId first.1
    else
      let first ← Program.lift (((← get).objects siblingId).entryAt 0)
      setSeparator parentId sibling.pageId first.1
  else
    let child ← Program.lift (sibling.childAt moved)
    let neighbour ← Program.lift
      (node.childAt (if isLeftSibling then 0 else node.getSize - 1))
    onObject nodeId fun object => .ok (object.insertAfter neighbour.2 child.1 child.2)
    onObject siblingId fun object => object.removeChild moved
    updateParentId child.2 node.pageId

def coalesce (siblingId nodeId parentId index : Nat) : Call K V Unit := do
  let node := (← get).objects nodeId
  if node.isLeafPage then
    (List.range node.getSize).forM fun index => do
      let entry ← Program.lift (node.entryAt index)
      onObject siblingId fun object => (object.insert types entry.1 entry.2).map Prod.snd
    onObject siblingId fun object => .ok (object.setNextPageId node.nextPageId)
  else
    (List.range node.getSize).forM fun index => do
      let sibling := (← get).objects siblingId
      let last ← Program.lift (sibling.childAt (sibling.getSize - 1))
      let child ← Program.lift (node.childAt index)
      onObject siblingId fun object => .ok (object.insertAfter last.2 child.1 child.2)
      updateParentId child.2 sibling.pageId
  onObject parentId fun object => object.removeChild index
  let s ← get
  let parent := s.objects parentId
  if parent.pageId = s.rootPageId && parent.getSize == 1 then
    adjustRoot parentId

def handleUnderflow (leafId : Nat) : Call K V Unit := do
  let s ← get
  let leaf := s.objects leafId
  if leaf.pageId = s.rootPageId then
    adjustRoot leafId
  else
    let parentId := leaf.parentPageId
    let _ ← onPool (BufferManager.fetchPage parentId)
    let parent := (← get).objects parentId
    let index := (parent.children.take parent.getSize).findIdx? fun child => child.2 = leaf.pageId
    let isLeft := 0 < index.getD 0
    -- Where the leaf is not found, the index is -1 and the first child is its right sibling.
    let right := (index.map (· + 1)).getD 0
    let sibling ← Program.lift (parent.childAt (if isLeft then index.getD 0 - 1 else right))
    let _ ← onPool (BufferManager.fetchPage sibling.2)
    let object := (← get).objects sibling.2
    if object.getSize > object.getMinSize then
      redistribute types sibling.2 leafId parentId isLeft
    else if isLeft then
      coalesce types sibling.2 leafId parentId (index.getD 0)
    else
      coalesce types leafId sibling.2 parentId right
    onPool (BufferManager.release sibling.2)
    onPool (BufferManager.release parentId)

def delete (key : K) : Call K V Bool := do
  let s ← get
  if s.rootPageId = INVALID_PAGE_ID then
    return false
  else
    let leafId ← findLeafPage key false
    let _ ← onPool (BufferManager.fetchPage leafId)
    let (removed, leaf) := ((← get).objects leafId).remove key
    onObject leafId fun _ => .ok leaf
    if !removed then
      onPool (BufferManager.release leafId)
      return false
    let s ← get
    if leafId ≠ s.rootPageId ∧ leaf.getSize < leaf.getMinSize then
      handleUnderflow types leafId
    else if leafId = s.rootPageId ∧ leaf.getSize = 0 then
      setRoot INVALID_PAGE_ID
    onPool (BufferManager.release leafId)
    return true

end IndexRun

end YourSQL
