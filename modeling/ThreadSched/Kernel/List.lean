import ThreadSched.Kernel.Bitmap
import ThreadSched.Lib.Rings

/-!
# Intrusive lists (`lib/list.c`)

The links of all `struct list_elem`s, by address.  A `struct list` is named by the addresses of its two
sentinels.  A read or write through `NULL` is `none`.

The loops stop at the tail sentinel; running out of fuel is `none` as well.
-/

set_option autoImplicit false

namespace ThreadSched.IntrusiveList

open Rings

variable {P : Type} [DecidableEq P]

/-- `&plist->head` and `&plist->tail`. -/
structure Plist (P : Type) where
  head : P
  tail : P

section

variable (null : P)

/-- The pointer is read or written through. -/
def deref (p : P) : Option Unit := if p = null then none else some ()

/-- `list_init`. -/
def listInit (plist : Plist P) (L : Links P) : Links P :=
  let L := L.setPrev plist.head null
  let L := L.setNext plist.head plist.tail
  let L := L.setPrev plist.tail plist.head
  L.setNext plist.tail null

/-- `list_insert_before`. -/
def listInsertBefore (before elem : P) (L : Links P) : Option (Links P) := do
  deref null before
  deref null (L.prev before)
  let L := L.setNext (L.prev before) elem
  deref null elem
  let L := L.setPrev elem (L.prev before)
  let L := L.setNext elem before
  pure (L.setPrev before elem)

/-- `list_push`. -/
def listPush (plist : Plist P) (elem : P) (L : Links P) : Option (Links P) :=
  listInsertBefore null (L.next plist.head) elem L

/-- `list_append`. -/
def listAppend (plist : Plist P) (elem : P) (L : Links P) : Option (Links P) :=
  listInsertBefore null plist.tail elem L

/-- `list_remove`. -/
def listRemove (pelem : P) (L : Links P) : Option (Links P) := do
  deref null pelem
  deref null (L.prev pelem)
  let L := L.setNext (L.prev pelem) (L.next pelem)
  deref null (L.next pelem)
  pure (L.setPrev (L.next pelem) (L.prev pelem))

/-- `list_pop`. -/
def listPop (plist : Plist P) (L : Links P) : Option (P × Links P) := do
  let elem := L.next plist.head
  let L ← listRemove null elem L
  pure (elem, L)

/-- The loop of `elem_find`. -/
def elemFindFrom (L : Links P) (tail objElem : P) : Nat → P → Option Bool
  | 0, _ => none
  | fuel + 1, elem =>
    if elem = tail then some false
    else if elem = objElem then some true
    else do
      deref null elem
      elemFindFrom L tail objElem fuel (L.next elem)

/-- `elem_find`. -/
def elemFind (fuel : Nat) (plist : Plist P) (objElem : P) (L : Links P) : Option Bool :=
  elemFindFrom null L plist.tail objElem fuel (L.next plist.head)

/-- `list_empty`. -/
def listEmpty (plist : Plist P) (L : Links P) : Bool := L.next plist.head = plist.tail

/-- The loop of `list_traversal`. -/
def listTraversalFrom (L : Links P) (tail : P) (func : P → Int → Bool) (arg : Int) :
    Nat → P → Option P
  | 0, _ => none
  | fuel + 1, elem =>
    if elem = tail then some null
    else if func elem arg then some elem
    else do
      deref null elem
      listTraversalFrom L tail func arg fuel (L.next elem)

/-- `list_traversal`. -/
def listTraversal (fuel : Nat) (plist : Plist P) (func : P → Int → Bool) (arg : Int) (L : Links P) :
    Option P :=
  if listEmpty plist L then some null
  else listTraversalFrom null L plist.tail func arg fuel (L.next plist.head)

/-- The loop of `list_len`; `length` is a `uint32_t`. -/
def listLenFrom (L : Links P) (tail : P) : Nat → Nat → P → Option Nat
  | 0, _, _ => none
  | fuel + 1, length, elem =>
    if elem = tail then some length
    else do
      deref null elem
      listLenFrom L tail fuel (uint32 (length + 1)) (L.next elem)

/-- `list_len`. -/
def listLen (fuel : Nat) (plist : Plist P) (L : Links P) : Option Nat :=
  listLenFrom null L plist.tail fuel 0 (L.next plist.head)

end

end ThreadSched.IntrusiveList
