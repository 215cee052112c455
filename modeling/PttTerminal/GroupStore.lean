import PttTerminal.GroupRecord
import PttTerminal.GroupStatus
import PttTerminal.Library.Walks

/-!
# The static variables of the native code

The groups form a circular list in the heap that `general_group` points into. Each group lives
in a pool of its own, so that a released pool is a released cell; an address is never used
again. What the handlers report to the application, and which transports and pools they close
and release, is recorded in `effects`, the latest first.
-/
namespace PttTerminal

open Loops LinkedCells Walks

inductive NativeStatus where
  | uninit
  | init
  | free
  | busy
  | waiting
  | rejected
  | canceled
  | forbidden
  deriving Repr, DecidableEq

inductive Effect where
  | receiveGroupInfo (groups : Option (List GroupEntry))
  | receiveMemberInfo (groupNum : Bytes) (members : List MemberEntry)
  | receiveRegroup
  | updatePttState (status : PttGroupStatus)
  | receivePttRightResponse (status : PttStatus)
  | mInviteIndicate (group speaker : Option Bytes)
  | mByeIndicate
  | callHangupAll
  | transportClose (transport : ℕ)
  | poolRelease (pool : ℕ)
  deriving Repr, DecidableEq

structure PttInfo where
  heap : Store ℕ GroupInfo
  fresh : ℕ
  generalGroup : Option ℕ
  signalAddress : Bytes
  signalPort : UInt32
  transportId : Option ℕ
  sndPool : Bool
  sndPort : Bool
  stream : Bool
  pttState : NativeStatus
  gCurrentGroup : Option ℕ
  currentCallId : Bytes
  gSpeaker : Bytes
  effects : List Effect
  /-- The media transports that are open. -/
  transports : List ℕ
  /-- How many pools of member messages were not released. -/
  tmpPools : ℕ
  /-- Whether a media transport for this number and port can be opened. -/
  udpCreate : Bytes → UInt32 → Bool

/-- A cell that is read or written has to be there. -/
def live {α : Type} : Option α → Except Fault α
  | none => .error .useAfterFree
  | some a => .ok a

@[simp] theorem live_some {α : Type} (a : α) : live (some a) = .ok a := rfl

theorem live_eq_ok {α : Type} {o : Option α} {a : α} : live o = .ok a ↔ o = some a := by
  cases o <;> simp [live]

/-- The cell a pointer leads to. -/
def PttInfo.deref (info : PttInfo) : Option ℕ → Except Fault (ℕ × Cell ℕ GroupInfo)
  | none => .error .nullPointer
  | some i => do
    let c ← live (info.heap i)
    return (i, c)

/-- `pj_pool_alloc` from a new pool, and the record that is parsed into it, linked to itself. -/
def PttInfo.alloc (info : PttInfo) (g : GroupInfo) : PttInfo :=
  { info with heap := info.heap.alloc info.fresh g, fresh := info.fresh + 1 }

def PttInfo.poolRelease (info : PttInfo) (i : ℕ) : PttInfo :=
  { info with heap := info.heap.release i, effects := .poolRelease i :: info.effects }

def PttInfo.pjListPushBack (info : PttInfo) (head node : ℕ) : Except Fault PttInfo := do
  let heap ← live (info.heap.insertBefore head node)
  return { info with heap := heap }

/-! ### Walking the list -/

/-- One round of a walk that collects the values and ends where it comes back to `head`. -/
def collectBody (heap : Store ℕ GroupInfo) (head : ℕ) (s : ℕ × List GroupInfo) :
    Except Fault (Ctl (ℕ × List GroupInfo) (List GroupInfo)) := do
  let c ← live (heap s.1)
  if c.next = head then return .exit (s.2 ++ [c.val])
  else return .next (c.next, s.2 ++ [c.val])

/-- No list has more cells than addresses were used. -/
def groupList (info : PttInfo) : Except Fault (Option (List GroupInfo)) :=
  match info.generalGroup with
  | none => .ok none
  | some head =>
    (loop .hang (collectBody info.heap head) (info.fresh + 1) (head, [])).map some

def receiveGroupInfo (info : PttInfo) : Except Fault PttInfo := do
  let groups ← groupList info
  let entries := groups.map (List.map fun g => ⟨cString g.name, cString g.number, g.level⟩)
  return { info with effects := .receiveGroupInfo entries :: info.effects }

/-- One round of the search for a number; it stops at the cell it found or where it comes back to
the head of the list. -/
def searchBody (heap : Store ℕ GroupInfo) (head : ℕ) (number : Bytes) (node : ℕ) :
    Except Fault (Ctl ℕ (Bool × ℕ)) := do
  let c ← live (heap node)
  if c.val.number = number then return .exit (true, node)
  else if c.next = head then return .exit (false, c.next)
  else return .next c.next

def search (info : PttInfo) (head : ℕ) (number : Bytes) (node : ℕ) : Except Fault (Bool × ℕ) :=
  loop .hang (searchBody info.heap head number) (info.fresh + 1) node

/-! ### Opening and closing -/

/-- Open the transport of one group, unless it has one. -/
def openTransport (info : PttInfo) (node : ℕ) : Except Fault PttInfo := do
  let c ← live (info.heap node)
  if c.val.transport.isNone && info.udpCreate c.val.number c.val.port then
    let heap ← live (info.heap.setVal node (c.val.setTransport (some info.fresh)))
    return { info with
      heap := heap
      fresh := info.fresh + 1
      transports := info.fresh :: info.transports }
  else return info

def createBody (head : ℕ) (s : PttInfo × ℕ) : Except Fault (Ctl (PttInfo × ℕ) PttInfo) := do
  let info ← openTransport s.1 s.2
  let c ← live (info.heap s.2)
  if c.next = head then return .exit info
  else return .next (info, c.next)

def pttMediaTransportCreate (info : PttInfo) (groupInfo : ℕ) : Except Fault PttInfo :=
  loop .hang (createBody groupInfo) (info.fresh + 1) (info, groupInfo)

def pjmediaTransportClose (info : PttInfo) (g : GroupInfo) : PttInfo :=
  match g.transport with
  | some t =>
    { info with
      transports := info.transports.erase t
      effects := .transportClose t :: info.effects }
  | none => info

/-- Close the transport of a group, take it out of its list and release its pool. The loop ends
when the node that comes next is the one just released. -/
def destroyBody (s : PttInfo × ℕ) : Except Fault (Ctl (PttInfo × ℕ) PttInfo) := do
  let (info, node) := s
  let c ← live (info.heap node)
  let info := pjmediaTransportClose info c.val
  let heap ← live (info.heap.setVal node (c.val.setTransport none))
  let heap ← live (heap.erase node)
  let info := PttInfo.poolRelease { info with heap := heap } node
  if c.next = node then return .exit info
  else return .next (info, c.next)

def pttMediaTransportDestroy (info : PttInfo) (groupInfo : Option ℕ) (bforce : Bool) :
    Except Fault PttInfo :=
  match groupInfo with
  | none => .ok info
  | some node =>
    let info := if bforce then { info with sndPort := false, sndPool := false, stream := false }
      else info
    loop .hang destroyBody (info.fresh + 1) (info, node)

def groupInfoInit (info : PttInfo) : PttInfo :=
  { info with generalGroup := none, transportId := none }

def groupInfoDestroy (info : PttInfo) : Except Fault PttInfo := do
  let info ← pttMediaTransportDestroy info info.generalGroup true
  return { info with generalGroup := none, transportId := none }

/-- `pj_bzero(&ptt_info, sizeof(PTT_info))`. -/
def bzeroPttInfo (info : PttInfo) : PttInfo :=
  { info with generalGroup := none, signalAddress := [], signalPort := 0, transportId := some 0,
              sndPool := false }

def multicastCallEnding (info : PttInfo) : PttInfo :=
  { info with sndPort := false, sndPool := false, stream := false }

def pttEnterState (info : PttInfo) (newState : NativeStatus) : PttInfo :=
  { info with pttState := newState }

def pttCloseMedia (info : PttInfo) : PttInfo :=
  let info := multicastCallEnding info
  if info.pttState ≠ .uninit then pttEnterState info .init else info

/-! ### Lists that are in order -/

/-- The list of groups is the circular list `xs`, and addresses still to come are unused. -/
structure PttInfo.Groups (info : PttInfo) (xs : List (ℕ × GroupInfo)) : Prop where
  holds : info.heap.Holds info.generalGroup xs
  bounded : ∀ i, info.fresh ≤ i → info.heap i = none

/-- The variables after `ptt_init`. -/
def PttInfo.initial (udpCreate : Bytes → UInt32 → Bool) : PttInfo where
  heap := fun _ => none
  fresh := 0
  generalGroup := none
  signalAddress := []
  signalPort := 0
  transportId := none
  sndPool := false
  sndPort := false
  stream := false
  pttState := .uninit
  gCurrentGroup := none
  currentCallId := []
  gSpeaker := []
  effects := []
  transports := []
  tmpPools := 0
  udpCreate := udpCreate

theorem PttInfo.initial_groups (udpCreate : Bytes → UInt32 → Bool) :
    (PttInfo.initial udpCreate).Groups [] := ⟨rfl, fun _ _ => rfl⟩

section walks

variable {heap : Store ℕ GroupInfo} {info : PttInfo} {x y z : ℕ × GroupInfo}
  {xs l vs : List (ℕ × GroupInfo)}

/-- The cells of a list lie below the first unused address, so that they are not more than it. -/
theorem PttInfo.Groups.lt_fresh (h : info.Groups xs) {p : ℕ × GroupInfo} (hp : p ∈ xs) :
    p.1 < info.fresh := by
  cases xs with
  | nil => simp at hp
  | cons x xs =>
    by_contra hge
    have := h.holds.2.vl_isSome hp
    rw [← Store.isSome_iff_vl, h.bounded p.1 (by omega)] at this
    simp at this

theorem PttInfo.Groups.nodup (h : info.Groups xs) : (xs.map Prod.fst).Nodup := by
  cases xs with
  | nil => simp
  | cons x xs => exact h.holds.2.nodup

theorem PttInfo.Groups.length_le (h : info.Groups xs) : xs.length ≤ info.fresh := by
  cases xs with
  | nil => exact Nat.zero_le _
  | cons x xs => exact h.holds.2.length_lt h.bounded

theorem collectBody_gathers (head : ℕ) :
    Gathers (collectBody heap head) heap head fun acc p => acc ++ [p.2] := by
  intro i c acc hc
  constructor <;> intro hnext <;>
    simp [collectBody, hc, hnext, bind, Except.bind, pure, Except.pure]

theorem collect_eq (h : heap.Ring x xs) {n : ℕ} (hn : xs.length < n) :
    loop .hang (collectBody heap x.1) n (x.1, []) = .ok ((x :: xs).map Prod.snd) := by
  have hfold : ∀ (ps : List (ℕ × GroupInfo)) (acc : List GroupInfo),
      ps.foldl (fun acc p => acc ++ [p.2]) acc = acc ++ ps.map Prod.snd := by
    intro ps
    induction ps with
    | nil => simp
    | cons p ps ih => simp [ih]
  rw [loop_ring (l := []) (collectBody_gathers x.1) h rfl hn [], hfold, List.nil_append]

/-- Walking a list that is in order gives its groups. -/
theorem groupList_eq (h : info.Groups xs) :
    groupList info = .ok (if xs = [] then none else some (xs.map Prod.snd)) := by
  cases xs with
  | nil =>
    have hg : info.generalGroup = none := h.holds
    simp [groupList, hg]
  | cons x xs =>
    have hle := h.length_le
    have hn : xs.length < info.fresh + 1 := by
      simp only [List.length_cons] at hle
      omega
    rw [groupList, h.holds.1]
    simp only [collect_eq h.holds.2 hn, Except.map, reduceCtorEq, if_false]

/-- The list that a state holds is one list only. -/
theorem PttInfo.Groups.unique {info : PttInfo} {xs ys : List (ℕ × GroupInfo)} (h : info.Groups xs)
    (h' : info.Groups ys) : xs.map Prod.snd = ys.map Prod.snd := by
  have hlist := groupList_eq h
  rw [groupList_eq h'] at hlist
  split_ifs at hlist with hy hx hx
  · rw [hx, hy]
  · simp at hlist
  · simp at hlist
  · simpa [eq_comm] using hlist

/-- The search finds the first cell with the number between the starting cell and the end. -/
theorem searchBody_seeks (heap : Store ℕ GroupInfo) (head : ℕ) (number : Bytes) :
    Seeks (searchBody heap head number) heap head (fun p => p.2.number = number)
      (fun p => (true, p.1)) (false, head) := by
  intro i c hc
  refine ⟨fun hnum => ?_, fun hnum hnext => ?_, fun hnum hnext => ?_⟩
  · have hnum' : c.val.number = number := by simpa using hnum
    simp [searchBody, hc, hnum', bind, Except.bind, pure, Except.pure]
  all_goals
    have hnum' : c.val.number ≠ number := by simpa using hnum
    simp [searchBody, hc, hnum', hnext, bind, Except.bind, pure, Except.pure]

theorem search_eq (h : info.Groups (x :: xs)) (hs : x :: xs = l ++ y :: vs) (number : Bytes) :
    search info x.1 number y.1 =
      match (y :: vs).find? (fun p => p.2.number = number) with
      | some p => .ok (true, p.1)
      | none => .ok (false, x.1) := by
  have hle := h.length_le
  have hlen : (x :: xs).length = l.length + (vs.length + 1) := by rw [hs]; simp
  have hn : vs.length < info.fresh + 1 := by omega
  rw [search, loop_seek (searchBody_seeks info.heap x.1 number) h.holds.2 hs hn]
  cases (y :: vs).find? (fun p => p.2.number = number) <;> rfl

end walks

section changes

variable {info : PttInfo} {x : ℕ × GroupInfo} {xs : List (ℕ × GroupInfo)} {i : ℕ} {g : GroupInfo}

theorem PttInfo.Groups.fresh_notMem (h : info.Groups xs) (hi : info.fresh ≤ i) :
    i ∉ xs.map Prod.fst := by
  intro hmem
  obtain ⟨p, hp, rfl⟩ := List.mem_map.mp hmem
  have := h.lt_fresh hp
  omega

theorem holds_alloc {heap : Store ℕ GroupInfo} {head : Option ℕ} (h : heap.Holds head xs)
    (hi : i ∉ xs.map Prod.fst) : (heap.alloc i g).Holds head xs := by
  cases xs with
  | nil => exact h
  | cons x xs => exact ⟨h.1, h.2.alloc hi⟩

theorem holds_release {heap : Store ℕ GroupInfo} {head : Option ℕ} (h : heap.Holds head xs)
    (hi : i ∉ xs.map Prod.fst) : (heap.release i).Holds head xs := by
  cases xs with
  | nil => exact h
  | cons x xs => exact ⟨h.1, h.2.release hi⟩

theorem PttInfo.Groups.alloc (h : info.Groups xs) (g : GroupInfo) : (info.alloc g).Groups xs where
  holds := holds_alloc h.holds (h.fresh_notMem le_rfl)
  bounded := by
    intro j hj
    have hj' : info.fresh + 1 ≤ j := hj
    rw [Store.eq_none_iff_vl, show (info.alloc g).heap = info.heap.alloc info.fresh g from rfl,
      Store.alloc_vl, Function.update_of_ne (by omega), ← Store.eq_none_iff_vl]
    exact h.bounded j (by omega)

theorem PttInfo.alloc_vl (info : PttInfo) (g : GroupInfo) :
    (info.alloc g).heap.vl info.fresh = some g := by
  simp [PttInfo.alloc, Store.alloc_vl]

/-- A group whose pool is released again leaves the list as it was. -/
theorem PttInfo.Groups.alloc_release (h : info.Groups xs) (g : GroupInfo) :
    ((info.alloc g).poolRelease info.fresh).Groups xs where
  holds := holds_release (h.alloc g).holds (h.fresh_notMem le_rfl)
  bounded := by
    intro j hj
    have := (h.alloc g).bounded j hj
    rw [Store.eq_none_iff_vl] at this ⊢
    rw [show ((info.alloc g).poolRelease info.fresh).heap = (info.alloc g).heap.release info.fresh
      from rfl, Store.release_vl]
    by_cases hji : j = info.fresh
    · simp [hji]
    · rwa [Function.update_of_ne hji]

/-- A new list of one group. -/
theorem PttInfo.Groups.newHead (h : info.Groups xs) (g : GroupInfo) :
    PttInfo.Groups { info.alloc g with generalGroup := some info.fresh } [(info.fresh, g)] where
  holds := ⟨rfl, Store.ring_alloc _ _ _⟩
  bounded := (h.alloc g).bounded

theorem PttInfo.Groups.pushBack (h : info.Groups (x :: xs)) (hi : i ∉ (x :: xs).map Prod.fst)
    (hv : info.heap.vl i = some g) :
    ∃ info', info.pjListPushBack x.1 i = .ok info' ∧ info'.Groups (x :: xs ++ [(i, g)]) ∧
      ∃ heap : Store ℕ GroupInfo, heap.vl = info.heap.vl ∧ info' = { info with heap := heap } := by
  obtain ⟨t, ht, hring, hvl⟩ := h.holds.2.insertBefore hi hv
  refine ⟨{ info with heap := t }, ?_, ⟨⟨h.holds.1, hring⟩, fun j hj => ?_⟩, t, hvl, rfl⟩
  · simp [PttInfo.pjListPushBack, ht, bind, Except.bind, pure, Except.pure]
  · rw [Store.eq_none_iff_vl, hvl, ← Store.eq_none_iff_vl]
    exact h.bounded j hj

/-- The transport of the group `y` is `t`: it had it, or it was opened now. -/
def Opened (info info' : PttInfo) (y : ℕ × GroupInfo) (t : Option ℕ) : Prop :=
  t = y.2.transport ∧ info' = info ∨
  t = some info.fresh ∧ y.2.transport = none ∧
    ∃ heap : Store ℕ GroupInfo,
      heap.vl = Function.update info.heap.vl y.1 (some (y.2.setTransport t)) ∧
      info' = { info with
        heap := heap
        fresh := info.fresh + 1
        transports := info.fresh :: info.transports }

/-- Opening the transport of a group that is not in the list yet. -/
theorem PttInfo.Groups.create (h : info.Groups xs) (hi : i ∉ xs.map Prod.fst)
    (hself : info.heap.nx i = some i) (hv : info.heap.vl i = some g) :
    ∃ info' t, pttMediaTransportCreate info i = .ok info' ∧ info'.Groups xs ∧
      info'.heap.vl i = some (g.setTransport t) ∧ Opened info info' (i, g) t := by
  obtain ⟨c, hc, hcn, -, hcv⟩ := Store.exists_cell (s := info.heap) (i := i) (by simp [hv])
  obtain rfl : g = c.val := by rw [hv] at hcv; exact Option.some.inj hcv
  obtain hn : c.next = i := by rw [hself] at hcn; exact (Option.some.inj hcn).symm
  by_cases hopen : (c.val.transport.isNone && info.udpCreate c.val.number c.val.port) = true
  · obtain ⟨s, hs, hsn, hsp, hsv⟩ := Store.setVal_spec (s := info.heap) (i := i) (by simp [hv])
      (c.val.setTransport (some info.fresh))
    obtain ⟨d, hd, hdn, -, -⟩ := Store.exists_cell (s := s) (i := i) (by simp [hsv])
    have hd' : d.next = i := by
      rw [hsn, hself] at hdn
      exact (Option.some.inj hdn).symm
    have hother : ∀ p ∈ xs, s.nx p.1 = info.heap.nx p.1 ∧ s.pv p.1 = info.heap.pv p.1 ∧
        s.vl p.1 = info.heap.vl p.1 := by
      intro p hp
      have hne : p.1 ≠ i := by rintro rfl; exact hi (List.mem_map_of_mem hp)
      rw [hsn, hsp, hsv, Function.update_of_ne hne]
      exact ⟨rfl, rfl, rfl⟩
    have hlt : i < info.fresh := by
      by_contra hge
      rw [h.bounded i (by omega)] at hc
      simp at hc
    have hnone : c.val.transport = none := by
      simp only [Bool.and_eq_true, Option.isNone_iff_eq_none] at hopen
      exact hopen.1
    refine ⟨{ info with
        heap := s
        fresh := info.fresh + 1
        transports := info.fresh :: info.transports }, some info.fresh, ?_, ⟨?_, ?_⟩, ?_,
      .inr ⟨rfl, hnone, s, hsv, rfl⟩⟩
    · refine loop_exit ?_ _
      simp [createBody, openTransport, hc, hopen, hs, hd, hd', bind, Except.bind, pure, Except.pure]
    · cases xs with
      | nil => exact h.holds
      | cons x xs => exact ⟨h.holds.1, h.holds.2.congr hother⟩
    · intro j hj
      have hj' : info.fresh + 1 ≤ j := hj
      rw [Store.eq_none_iff_vl]
      change s.vl j = none
      rw [hsv, Function.update_of_ne (by omega), ← Store.eq_none_iff_vl]
      exact h.bounded j (by omega)
    · simp [hsv]
  · refine ⟨info, c.val.transport, ?_, h, by simpa [GroupInfo.setTransport] using hv,
      .inl ⟨rfl, rfl⟩⟩
    refine loop_exit ?_ _
    simp [createBody, openTransport, hc, hopen, hn, bind, Except.bind, pure, Except.pure]

/-! ### Groups that come and go -/

/-- The group `y` is new: it was allocated and linked, and its transport may have been opened. -/
def Added (info info' : PttInfo) (y : ℕ × GroupInfo) : Prop :=
  y.1 = info.fresh ∧ ∃ heap : Store ℕ GroupInfo,
    heap.vl = Function.update info.heap.vl y.1 (some y.2) ∧
      (y.2.transport = none ∧ info' = { info with heap := heap, fresh := info.fresh + 1 } ∨
        y.2.transport = some (info.fresh + 1) ∧
          info' = { info with
            heap := heap
            fresh := info.fresh + 2
            transports := (info.fresh + 1) :: info.transports })

theorem added_alloc (info : PttInfo) (hg : g.transport = none) :
    Added info (info.alloc g) (info.fresh, g) :=
  ⟨rfl, _, Store.alloc_vl _ _ _, .inl ⟨hg, rfl⟩⟩

/-- Linking a new group changes no value. -/
theorem Added.of_vl {info' : PttInfo} {y : ℕ × GroupInfo} {heap : Store ℕ GroupInfo}
    (h : Added info info' y) (hvl : heap.vl = info'.heap.vl) :
    Added info { info' with heap := heap } y := by
  obtain ⟨hy, t, ht, ⟨hn, rfl⟩ | ⟨hn, rfl⟩⟩ := h
  · exact ⟨hy, heap, hvl.trans ht, .inl ⟨hn, rfl⟩⟩
  · exact ⟨hy, heap, hvl.trans ht, .inr ⟨hn, rfl⟩⟩

/-- A new group whose transport is opened before it is linked. -/
theorem Opened.added {info' : PttInfo} {t : Option ℕ} (hg : g.transport = none)
    (h : Opened (info.alloc g) info' (info.fresh, g) t) :
    Added info info' (info.fresh, g.setTransport t) := by
  obtain ⟨rfl, rfl⟩ | ⟨rfl, -, heap, hvl, rfl⟩ := h
  · rw [show g.setTransport g.transport = g from rfl]
    exact added_alloc info hg
  · refine ⟨rfl, heap, ?_, .inr ⟨rfl, rfl⟩⟩
    rw [hvl, show (info.alloc g).heap = info.heap.alloc info.fresh g from rfl, Store.alloc_vl,
      Function.update_idem]

/-- The group `y` was taken away: its transport is closed and its pool released. -/
def Freed (info info' : PttInfo) (y : ℕ × GroupInfo) : Prop :=
  ∃ heap : Store ℕ GroupInfo, heap.vl = Function.update info.heap.vl y.1 none ∧
    info' = { pjmediaTransportClose info y.2 with
      heap := heap
      effects := .poolRelease y.1 :: (pjmediaTransportClose info y.2).effects }

theorem pjmediaTransportClose_eq (info : PttInfo) (g : GroupInfo) :
    ∃ effects transports, pjmediaTransportClose info g =
      { info with effects := effects, transports := transports } := by
  unfold pjmediaTransportClose
  split <;> exact ⟨_, _, rfl⟩

/-- What was taken away depends on the values in the heap only. -/
theorem Freed.of_vl {info info' : PttInfo} {heap : Store ℕ GroupInfo} {y : ℕ × GroupInfo}
    (h : Freed { info with heap := heap } info' y) (hvl : heap.vl = info.heap.vl) :
    Freed info info' y := by
  obtain ⟨t, ht, rfl⟩ := h
  refine ⟨t, ht.trans (by rw [← hvl]), ?_⟩
  unfold pjmediaTransportClose
  split <;> rfl

/-- Releasing a group that was taken out of its list leaves every other list as it is. -/
theorem PttInfo.destroy (info : PttInfo) (hself : info.heap.Linked i i)
    (hv : info.heap.vl i = some g) :
    ∃ info', pttMediaTransportDestroy info (some i) false = .ok info' ∧ Freed info info' (i, g) ∧
      ∀ head xs, info.heap.Holds head xs → i ∉ xs.map Prod.fst → info'.heap.Holds head xs := by
  obtain ⟨c, hc, hcn, hcp, hcv⟩ := Store.exists_cell (s := info.heap) (i := i) (by simp [hv])
  obtain hn : c.next = i := by rw [hself.1] at hcn; exact (Option.some.inj hcn).symm
  obtain rfl : g = c.val := by rw [hv] at hcv; exact Option.some.inj hcv
  obtain ⟨s, hs, hsn, hsp, hsv⟩ := Store.setVal_spec (s := info.heap) (i := i) (by simp [hv])
    (c.val.setTransport none)
  obtain ⟨t, ht, htn, htp, htv⟩ := Store.erase_spec (s := s) (x := i) (p := i) (n := i)
    (by simp [hsv]) (by rw [hsp]; exact hself.2) (by rw [hsn]; exact hself.1) (by simp [hsv])
    (by simp [hsv])
  obtain ⟨e, o, he⟩ := pjmediaTransportClose_eq info c.val
  refine ⟨PttInfo.poolRelease { info with heap := t, effects := e, transports := o } i, ?_,
    ⟨t.release i, ?_, ?_⟩, ?_⟩
  · refine loop_exit ?_ _
    simp [destroyBody, hc, he, hs, ht, hn, bind, Except.bind, pure, Except.pure]
  · rw [Store.release_vl, htv, hsv, Function.update_idem]
  · rw [he]
    rfl
  · intro head xs hx hi
    cases xs with
    | nil => exact hx
    | cons x xs =>
      refine ⟨hx.1, hx.2.congr fun p hp => ?_⟩
      have hne : p.1 ≠ i := by rintro rfl; exact hi (List.mem_map_of_mem hp)
      simp only [PttInfo.poolRelease, Store.release_nx, Store.release_pv,
        Store.release_vl, htn, htp,
        htv, hsn, hsp, hsv, Function.update_of_ne hne, and_self]

/-! ### Releasing the whole list -/

theorem destroyBody_next {y z : ℕ × GroupInfo} {rs : List (ℕ × GroupInfo)}
    (h : info.heap.Ring y (z :: rs)) :
    ∃ info', destroyBody (info, y.1) = .ok (.next (info', z.1)) ∧ info'.heap.Ring z rs ∧
      Freed info info' y := by
  obtain ⟨c, hc, hn, hv⟩ := h.cell_of_split (l := []) rfl
  have hn' : c.next = z.1 := hn
  have hne : z.1 ≠ y.1 := h.notMem List.mem_cons_self
  obtain ⟨s, hs, hring, hsv⟩ := h.setVal_first (c.val.setTransport none)
  obtain ⟨t, ht, hring', -, htv⟩ := hring.erase
  obtain ⟨e, o, he⟩ := pjmediaTransportClose_eq info c.val
  refine ⟨PttInfo.poolRelease { info with heap := t, effects := e, transports := o } y.1, ?_,
    hring'.release (List.nodup_cons.mp h.nodup).1, t.release y.1, ?_, ?_⟩
  · simp [destroyBody, hc, he, hs, ht, hn', hne, bind, Except.bind, pure, Except.pure]
  · rw [Store.release_vl, htv, hsv, Function.update_idem]
  · rw [← hv, he]
    rfl

theorem destroyBody_last {y : ℕ × GroupInfo} (h : info.heap.Ring y []) :
    ∃ info', destroyBody (info, y.1) = .ok (.exit info') ∧ Freed info info' y := by
  obtain ⟨c, hc, hn, hv⟩ := h.cell_of_split (l := []) rfl
  have hn' : c.next = y.1 := hn
  obtain ⟨s, hs, hring, hsv⟩ := h.setVal_first (c.val.setTransport none)
  obtain ⟨t, ht, -, htv⟩ := hring.erase_single
  obtain ⟨e, o, he⟩ := pjmediaTransportClose_eq info c.val
  refine ⟨PttInfo.poolRelease { info with heap := t, effects := e, transports := o } y.1, ?_,
    t.release y.1, ?_, ?_⟩
  · simp [destroyBody, hc, he, hs, ht, hn', bind, Except.bind, pure, Except.pure]
  · rw [Store.release_vl, htv, hsv, Function.update_idem]
  · rw [← hv, he]
    rfl

/-- What is kept when the first of some groups is taken away holds of none in the end. -/
theorem destroyLoop_rule {P : PttInfo → List (ℕ × GroupInfo) → Prop}
    (hfreed : ∀ info info' y rs, P info (y :: rs) → Freed info info' y → P info' rs)
    {y : ℕ × GroupInfo} {rs : List (ℕ × GroupInfo)} {n : ℕ} (hn : rs.length < n)
    (h : info.heap.Ring y rs) (hP : P info (y :: rs)) :
    ∃ info', loop .hang destroyBody n (info, y.1) = .ok info' ∧ P info' [] := by
  induction rs generalizing info y n with
  | nil =>
    obtain ⟨n, rfl⟩ : ∃ k, n = k + 1 := ⟨n - 1, by omega⟩
    obtain ⟨info', hrun, hf⟩ := destroyBody_last h
    exact ⟨info', loop_exit hrun n, hfreed _ _ _ _ hP hf⟩
  | cons z rs ih =>
    obtain ⟨n, rfl⟩ : ∃ k, n = k + 1 := ⟨n - 1, by omega⟩
    obtain ⟨info₁, hrun, hring, hf⟩ := destroyBody_next h
    obtain ⟨info', hloop, hP'⟩ := ih (n := n) (by simpa using hn) hring (hfreed _ _ _ _ hP hf)
    exact ⟨info', by rw [loop_next hrun, hloop], hP'⟩

end changes

end PttTerminal
