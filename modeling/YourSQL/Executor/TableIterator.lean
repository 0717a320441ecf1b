import YourSQL.Storage.TablePage

/-! # Walking over the records of a table

A `TableIterator` walks the chain of a table's pages from the first one. It holds
the page it stands on; pages without rows are passed over. The walk is bounded by
the number of slots there are, which a chain without a cycle never exceeds.
-/

namespace YourSQL

structure TableIterator where
  tableId : Nat
  currentPageId : Nat := INVALID_PAGE_ID
  currentRowIndex : Nat := 1
  currentPageNumRows : Nat := 0
  tablePage : TablePage
  isEnd : Bool := false
  deriving Repr, DecidableEq

/-- All pages and all slots: no walk takes more steps. -/
def Database.slotCount (s : Database) : Nat :=
  ((List.range s.nextPageId).map fun p => (s.page p).asTable.header.numRows + 1).sum

/-- `TouchPage` tells the replacement policy; it fails for a page not in the pool. -/
def touchPage (id : Nat) : Exec Unit := do
  let s ← get
  if s.pins id = 0 then
    throw "BufferManager::TouchPage: Page not found"

namespace TableIterator

def outOfFuel : String := "TableIterator: cyclic page chain"

def loadPage (it : TableIterator) : Exec TableIterator := do
  fetchPage it.currentPageId
  let tp ← TablePage.load it.tableId it.currentPageId
  return { it with tablePage := tp, currentPageNumRows := tp.header.numRows }

/-- To the next page that has rows, or to the end. -/
def nextPage : (fuel : Nat) → TableIterator → Exec TableIterator
  | 0, _ => throw outOfFuel
  | fuel + 1, it => do
      release it.currentPageId
      if it.tablePage.header.nextPageId = INVALID_PAGE_ID then
        return { it with isEnd := true }
      let it ← loadPage { it with currentPageId := it.tablePage.header.nextPageId }
      let it := { it with currentRowIndex := 1 }
      if it.currentPageNumRows = 0 then
        nextPage fuel it
      else
        return it

/-- The constructor. -/
def create (tableId : Nat) : Exec TableIterator := do
  let firstPageId ← getFirstPageId tableId
  let it : TableIterator := {
    tableId := tableId
    currentPageId := firstPageId
    tablePage := ⟨tableId, firstPageId, {}, 0⟩ }
  if firstPageId = INVALID_PAGE_ID then
    return { it with isEnd := true }
  let it ← it.loadPage
  if it.currentPageNumRows = 0 then
    nextPage (← get).slotCount it
  else
    return it

def rid (it : TableIterator) : RID := ⟨it.currentPageId, it.currentRowIndex⟩

/-- `operator*`. -/
def current (it : TableIterator) : Exec (Option Record) := do
  if it.isEnd then
    throw "TableIterator::operator*() is not valid"
  it.tablePage.getTuple it.rid

/-- `operator++`. -/
def advance (it : TableIterator) : Exec TableIterator := do
  if it.isEnd then
    return it
  let it := { it with currentRowIndex := it.currentRowIndex + 1 }
  if it.currentRowIndex > it.currentPageNumRows then
    nextPage (← get).slotCount it
  else
    touchPage it.currentPageId
    return it

/-- `while (!iterator->IsEnd())`: each round moves the iterator on. -/
def whileNotEnd (round : TableIterator → β → Exec (TableIterator × β)) :
    (fuel : Nat) → TableIterator → β → Exec β
  | fuel, it, acc =>
      if it.isEnd then
        return acc
      else
        match fuel with
        | 0 => throw outOfFuel
        | fuel + 1 => do
            let (it, acc) ← round it acc
            whileNotEnd round fuel it acc

end TableIterator

end YourSQL
