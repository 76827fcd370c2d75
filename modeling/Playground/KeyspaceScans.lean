import Mathlib.Data.Nat.Notation

/-! # Cursor scans of a keyspace

A scan walks a keyspace page by page, from a first cursor until that cursor comes back. The order of
the walk is fixed, so a page has every key between its cursor and the next one, whatever is added or
removed between two pages. -/
namespace KeyspaceScans

/-- How far a cursor has come and where the walk meets a key. -/
structure ScanOrder (Key Cursor : Type) (first : Cursor) where
  place : Key → ℕ
  reached : Cursor → ℕ
  size : ℕ
  start : reached first = 0
  inside : ∀ cursor, reached cursor < size

variable {Key Cursor : Type} {first : Cursor}

/-- What one reply of a scan promises about the keys that are there when it is computed. -/
structure Page (order : ScanOrder Key Cursor first) (held selected : Key → Prop)
    (cursor next : Cursor)
    (keys : List Key) : Prop where
  chosen : ∀ key ∈ keys, selected key
  covers : ∀ key, held key → selected key → order.reached cursor ≤ order.place key →
    key ∈ keys ∨ next ≠ first ∧ order.reached next ≤ order.place key
  advances : next ≠ first → order.reached cursor < order.reached next

/-- The walk has yet to meet every selected key. -/
def Ahead (order : ScanOrder Key Cursor first) (held selected : Key → Prop) (cursor : Cursor) :
    Prop :=
  ∀ key, held key → selected key → order.reached cursor ≤ order.place key

def PageOrAhead (order : ScanOrder Key Cursor first) (held selected : Key → Prop) (next : Cursor)
    (keys : List Key) : Prop :=
  ∀ key, held key → selected key → key ∈ keys ∨ next ≠ first ∧ order.reached next ≤ order.place key

variable {order : ScanOrder Key Cursor first} {held held' selected : Key → Prop}
  {cursor next : Cursor}
  {keys : List Key}

theorem ahead_start : Ahead order held selected first := by
  intro key _ _
  rw [order.start]
  exact Nat.zero_le _

theorem Ahead.page (h : Ahead order held selected cursor)
    (hpage : Page order held selected cursor next keys) :
    PageOrAhead order held selected next keys :=
  fun key hheld hsel => hpage.covers key hheld hsel (h key hheld hsel)

theorem Ahead.shrink (h : Ahead order held selected cursor)
    (hsub : ∀ key, selected key → held' key → held key) : Ahead order held' selected cursor :=
  fun key hheld hsel => h key (hsub key hsel hheld) hsel

theorem PageOrAhead.shrink (h : PageOrAhead order held selected next keys)
    (hsub : ∀ key, selected key → held' key → held key) :
    PageOrAhead order held' selected next keys :=
  fun key hheld hsel => h key (hsub key hsel hheld) hsel

theorem PageOrAhead.ahead (h : PageOrAhead order held selected next keys)
    (hsub : ∀ key, held' key → held key ∧ key ∉ keys) : Ahead order held' selected next := by
  intro key hheld hsel
  obtain ⟨hold, hout⟩ := hsub key hheld
  rcases h key hold hsel with hkey | ⟨-, hle⟩
  · exact absurd hkey hout
  · exact hle

theorem PageOrAhead.last (h : PageOrAhead order held selected first keys)
    (hsub : ∀ key, held' key → held key ∧ key ∉ keys) {key : Key} (hsel : selected key) :
    ¬ held' key := by
  intro hheld
  obtain ⟨hold, hout⟩ := hsub key hheld
  rcases h key hold hsel with hkey | ⟨hne, -⟩
  · exact hout hkey
  · exact hne rfl

/-- A walk of at most as many pages as the order has places. -/
theorem Page.rounds {fuel : ℕ} (hpage : Page order held selected cursor next keys)
    (hfuel : order.size ≤ fuel + 1 + order.reached cursor) (hnext : next ≠ first) :
    order.size ≤ fuel + order.reached next := by
  have hlt := hpage.advances hnext
  omega

end KeyspaceScans
