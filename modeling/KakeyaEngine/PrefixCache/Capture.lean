import Mathlib.Data.Finset.Basic
import KakeyaEngine.Lib.Endian
import KakeyaEngine.Lib.Hex
import KakeyaEngine.Lib.Machine
import KakeyaEngine.Lib.Sha256
import Mathlib.Algebra.Group.Int.Defs

/-!
# The queue of captured prefixes

First appends are captured into a bounded queue, each prefix once, and are taken out again by a drain.  A set has the
digests of what is queued, and a full queue gives up its oldest item.  Every call holds the lock while it reads and changes
the state, so calls from different threads come one after the other; the digest that a call computes before it takes the lock
depends on nothing that changes.  In every run the set has exactly the digests of the queued items, and the items leave in
the order in which they came (`deliveries_of_run`).
-/

namespace KakeyaEngine

namespace CacheFill

/-! ### The queue -/

structure CapturedPrefix where
  captureId : List Char
  tokenIds : List Int
  tokenCount : Nat
deriving DecidableEq

structure CacheFillCapture where
  maxItems : Nat
  excludedLabelPrefix : String
  salt : List UInt8
  items : List CapturedPrefix
  seen : Finset (List UInt8)
  captured : Nat
  duplicates : Nat
  dropped : Nat
  max_pos : 0 < maxItems

/-- `CacheFillCapture.__init__`, with the random salt. -/
def init (maxItems : Int) (excludedLabelPrefix : String) (salt : List UInt8) : Except String CacheFillCapture :=
  if h : maxItems ≤ 0 then .error "max_items must be > 0"
  else .ok ⟨maxItems.toNat, excludedLabelPrefix, salt, [], ∅, 0, 0, 0, by omega⟩

/-- The digest of the salted tokens. -/
@[irreducible] def digestOf (salt : List UInt8) (tokens : List Int) : List UInt8 :=
  Sha256.sha256 (salt ++ tokens.flatMap fun token => LittleEndian.bytes 4 token.toNat)

/-- `self._seen.discard(bytes.fromhex(item.capture_id))`. -/
def discard (seen : Finset (List UInt8)) (item : CapturedPrefix) : Finset (List UInt8) :=
  match Hex.decode item.captureId with
  | some digest => seen.erase digest
  | none => seen

/-- A full queue gives up its oldest item. -/
def evict (c : CacheFillCapture) : Option CapturedPrefix × CacheFillCapture :=
  match c.items with
  | [] => (none, c)
  | evicted :: rest =>
    if c.maxItems ≤ c.items.length then
      (some evicted, { c with items := rest, seen := discard c.seen evicted, dropped := c.dropped + 1 })
    else (none, c)

def append (c : CacheFillCapture) (digest : List UInt8) (tokens : List Int) : CacheFillCapture :=
  { c with
    items := c.items ++ [⟨Hex.encode digest, tokens, tokens.length⟩]
    seen := insert digest c.seen
    captured := c.captured + 1 }

def observe (c : CacheFillCapture) (clientLabel : String) (tokenIds : List Int) : Except String Bool × CacheFillCapture :=
  if c.excludedLabelPrefix.toList.isPrefixOf clientLabel.toList then (.ok false, c)
  else if tokenIds = [] then (.ok false, c)
  else if tokenIds.any fun token => token < 0 ∨ 2 ^ 32 ≤ token then (.error "OverflowError", c)
  else
    let digest := digestOf c.salt tokenIds
    if digest ∈ c.seen then (.ok false, { c with duplicates := c.duplicates + 1 })
    else (.ok true, append (evict c).2 digest tokenIds)

/-- The loop of `drain`, with the number of items that it may still take. -/
def drainLoop : (left : Nat) → List CapturedPrefix → Finset (List UInt8) →
    List CapturedPrefix × List CapturedPrefix × Finset (List UInt8)
  | 0, items, seen => ([], items, seen)
  | _, [], seen => ([], [], seen)
  | left + 1, item :: items, seen =>
    let rest := drainLoop left items (discard seen item)
    (item :: rest.1, rest.2)

def drain (c : CacheFillCapture) (maxItems : Int) : Except String (List CapturedPrefix) × CacheFillCapture :=
  if maxItems ≤ 0 then (.error "max_items must be > 0", c)
  else
    let rest := drainLoop maxItems.toNat c.items c.seen
    (.ok rest.1, { c with items := rest.2.1, seen := rest.2.2 })

/-! ### The set of digests -/

/-- The queued items have different digests, and the set has exactly these. -/
structure Tracked (c : CacheFillCapture) : Prop where
  ids : ∀ item ∈ c.items, item.captureId = Hex.encode (digestOf c.salt item.tokenIds)
  counts : ∀ item ∈ c.items, item.tokenCount = item.tokenIds.length
  nodup : (c.items.map fun item => digestOf c.salt item.tokenIds).Nodup
  seen : c.seen = (c.items.map fun item => digestOf c.salt item.tokenIds).toFinset
  bounded : c.items.length ≤ c.maxItems

theorem discard_eq {salt : List UInt8} {item : CapturedPrefix} (seen : Finset (List UInt8))
    (hid : item.captureId = Hex.encode (digestOf salt item.tokenIds)) :
    discard seen item = seen.erase (digestOf salt item.tokenIds) := by
  unfold discard
  rw [hid, Hex.decode_encode]

/-- Without its oldest item, the queue has the digests of the others. -/
theorem discard_toFinset {salt : List UInt8} {item : CapturedPrefix} {items : List CapturedPrefix}
    (hid : item.captureId = Hex.encode (digestOf salt item.tokenIds))
    (hnodup : ((item :: items).map fun item => digestOf salt item.tokenIds).Nodup) :
    discard ((item :: items).map fun item => digestOf salt item.tokenIds).toFinset item =
      (items.map fun item => digestOf salt item.tokenIds).toFinset := by
  rw [List.map_cons, List.nodup_cons] at hnodup
  rw [discard_eq _ hid, List.map_cons, List.toFinset_cons, Finset.erase_insert]
  rw [List.mem_toFinset]
  exact hnodup.1

/-- The counters do not matter. -/
theorem Tracked.congr {c c' : CacheFillCapture} (h : Tracked c) (hmax : c'.maxItems = c.maxItems) (hsalt : c'.salt = c.salt)
    (hitems : c'.items = c.items) (hseen : c'.seen = c.seen) : Tracked c' := by
  refine ⟨?_, hitems ▸ h.counts, ?_, ?_, ?_⟩
  · rw [hitems, hsalt]
    exact h.ids
  · rw [hitems, hsalt]
    exact h.nodup
  · rw [hitems, hsalt, hseen]
    exact h.seen
  · rw [hitems, hmax]
    exact h.bounded

/-- A queue without its oldest item. -/
theorem Tracked.tail {c : CacheFillCapture} (h : Tracked c) {item : CapturedPrefix} {items : List CapturedPrefix}
    (hitems : c.items = item :: items) {c' : CacheFillCapture} (hmax : c'.maxItems = c.maxItems) (hsalt : c'.salt = c.salt)
    (hitems' : c'.items = items) (hseen : c'.seen = discard c.seen item) : Tracked c' := by
  have hids := h.ids
  have hcounts := h.counts
  have hnodup := h.nodup
  have hbounded := h.bounded
  rw [hitems] at hids hcounts hnodup hbounded
  refine ⟨?_, ?_, ?_, ?_, ?_⟩
  · rw [hitems', hsalt]
    exact (List.forall_mem_cons.mp hids).2
  · rw [hitems']
    exact (List.forall_mem_cons.mp hcounts).2
  · rw [hitems', hsalt]
    exact (List.nodup_cons.mp hnodup).2
  · rw [hitems', hsalt, hseen, h.seen, hitems]
    exact discard_toFinset (List.forall_mem_cons.mp hids).1 hnodup
  · rw [hitems', hmax]
    rw [List.length_cons] at hbounded
    omega

/-! ### Capturing -/

/-- What an eviction does: nothing below the bound, and otherwise the oldest item is dropped. -/
theorem evict_cases (c : CacheFillCapture) :
    (evict c = (none, c) ∧ c.items.length < c.maxItems) ∨
      ∃ item items, c.items = item :: items ∧ evict c = (some item,
        { c with items := items, seen := discard c.seen item, dropped := c.dropped + 1 }) := by
  have hpos := c.max_pos
  unfold evict
  cases hitems : c.items with
  | nil => exact .inl ⟨rfl, hpos⟩
  | cons item items =>
    dsimp only
    split
    · exact .inr ⟨item, items, rfl, rfl⟩
    · exact .inl ⟨rfl, by omega⟩

theorem Tracked.after_evict {c : CacheFillCapture} (h : Tracked c) :
    Tracked (evict c).2 ∧ (evict c).2.items.length < (evict c).2.maxItems ∧ (evict c).2.seen ⊆ c.seen := by
  rcases evict_cases c with ⟨hevict, hroom⟩ | ⟨item, items, hitems, hevict⟩
  · rw [hevict]
    exact ⟨h, hroom, Finset.Subset.refl _⟩
  · have hbounded := h.bounded
    have hid : item.captureId = Hex.encode (digestOf c.salt item.tokenIds) := h.ids item (hitems ▸ List.mem_cons_self)
    rw [hitems, List.length_cons] at hbounded
    rw [hevict]
    refine ⟨h.tail hitems rfl rfl rfl rfl, ?_, ?_⟩
    · show items.length < c.maxItems
      omega
    · show discard c.seen item ⊆ c.seen
      rw [discard_eq c.seen hid]
      exact Finset.erase_subset _ _

theorem Tracked.after_append {c : CacheFillCapture} (h : Tracked c) {digest : List UInt8} {tokens : List Int}
    (hdigest : digestOf c.salt tokens = digest) (hnew : digest ∉ c.seen) (hroom : c.items.length < c.maxItems) :
    Tracked (append c digest tokens) := by
  have hdigests : ((append c digest tokens).items.map fun item => digestOf c.salt item.tokenIds) =
      (c.items.map fun item => digestOf c.salt item.tokenIds) ++ [digest] := by
    rw [← hdigest]
    exact List.map_append
  refine ⟨?_, ?_, ?_, ?_, ?_⟩
  · refine List.forall_mem_append.mpr ⟨h.ids, fun item hmem => ?_⟩
    obtain rfl := List.mem_singleton.mp hmem
    exact congrArg Hex.encode hdigest.symm
  · refine List.forall_mem_append.mpr ⟨h.counts, fun item hmem => ?_⟩
    obtain rfl := List.mem_singleton.mp hmem
    rfl
  · show ((append c digest tokens).items.map fun item => digestOf c.salt item.tokenIds).Nodup
    rw [hdigests, List.nodup_append]
    refine ⟨h.nodup, List.nodup_singleton _, fun d hd d' hd' heq => hnew ?_⟩
    rw [h.seen, List.mem_toFinset, ← List.mem_singleton.mp hd', ← heq]
    exact hd
  · show insert digest c.seen = ((append c digest tokens).items.map fun item => digestOf c.salt item.tokenIds).toFinset
    ext d
    rw [hdigests, Finset.mem_insert, h.seen, List.mem_toFinset, List.mem_toFinset, List.mem_append, List.mem_singleton]
    exact or_comm
  · show (c.items ++ [_]).length ≤ c.maxItems
    rw [List.length_append, List.length_singleton]
    exact hroom

/-! ### Draining -/

theorem drainLoop_items (left : Nat) (items : List CapturedPrefix) (seen : Finset (List UInt8)) :
    (drainLoop left items seen).1 = items.take left ∧ (drainLoop left items seen).2.1 = items.drop left := by
  induction left generalizing items seen with
  | zero =>
    cases items with
    | nil => exact ⟨rfl, rfl⟩
    | cons item items => exact ⟨rfl, rfl⟩
  | succ left ih =>
    cases items with
    | nil => exact ⟨rfl, rfl⟩
    | cons item items =>
      obtain ⟨hout, hrest⟩ := ih items (discard seen item)
      exact ⟨congrArg (item :: ·) hout, hrest⟩

theorem Tracked.after_drainLoop {c : CacheFillCapture} (h : Tracked c) (left : Nat) {c' : CacheFillCapture}
    (hmax : c'.maxItems = c.maxItems) (hsalt : c'.salt = c.salt)
    (hitems' : c'.items = (drainLoop left c.items c.seen).2.1) (hseen : c'.seen = (drainLoop left c.items c.seen).2.2) :
    Tracked c' := by
  induction left generalizing c with
  | zero =>
    cases hitems : c.items with
    | nil =>
      rw [hitems] at hitems' hseen
      exact h.congr hmax hsalt (hitems'.trans hitems.symm) hseen
    | cons item items =>
      rw [hitems] at hitems' hseen
      exact h.congr hmax hsalt (hitems'.trans hitems.symm) hseen
  | succ left ih =>
    cases hitems : c.items with
    | nil =>
      rw [hitems] at hitems' hseen
      exact h.congr hmax hsalt (hitems'.trans hitems.symm) hseen
    | cons item items =>
      rw [hitems] at hitems' hseen
      have htail : Tracked { c with items := items, seen := discard c.seen item } := h.tail hitems rfl rfl rfl rfl
      exact ih htail hmax hsalt hitems' hseen

/-! ### Runs -/

inductive CaptureCall
  | observe (clientLabel : String) (tokenIds : List Int)
  | drain (maxItems : Int)

inductive CaptureReply
  | observed (captured : Bool)
  | drained (items : List CapturedPrefix)

/-- The queue, with the items that have come and those that have left, in their order, and how many were drained. -/
structure CaptureRun where
  capture : CacheFillCapture
  arrived : List CapturedPrefix
  departed : List CapturedPrefix
  drained : Nat

def captureStep (s : CaptureRun) : CaptureCall → Except String CaptureReply × CaptureRun
  | .observe clientLabel tokenIds =>
    match observe s.capture clientLabel tokenIds with
    | (.ok true, c) =>
      (.ok (.observed true),
        { s with
          capture := c
          arrived := s.arrived ++ c.items.getLast?.toList
          departed := s.departed ++ (evict s.capture).1.toList })
    | (.ok false, c) => (.ok (.observed false), { s with capture := c })
    | (.error e, c) => (.error e, { s with capture := c })
  | .drain maxItems =>
    match drain s.capture maxItems with
    | (.ok items, c) =>
      (.ok (.drained items),
        { s with capture := c, departed := s.departed ++ items, drained := s.drained + items.length })
    | (.error e, c) => (.error e, { s with capture := c })

/-- What holds between the calls: the set has the digests of the queued items, which are all different and no more than the
bound, the items leave in the order in which they came, and every captured item is queued, drained or dropped. -/
structure Sound (s : CaptureRun) : Prop where
  tracked : Tracked s.capture
  order : s.arrived = s.departed ++ s.capture.items
  arrived : s.capture.captured = s.arrived.length
  counted : s.capture.captured = s.capture.items.length + s.drained + s.capture.dropped

/-- What an observation can do. -/
theorem observe_cases (c : CacheFillCapture) (clientLabel : String) (tokenIds : List Int) :
    (∃ e, observe c clientLabel tokenIds = (.error e, c)) ∨ observe c clientLabel tokenIds = (.ok false, c) ∨
      observe c clientLabel tokenIds = (.ok false, { c with duplicates := c.duplicates + 1 }) ∨
      (digestOf c.salt tokenIds ∉ c.seen ∧
        observe c clientLabel tokenIds = (.ok true, append (evict c).2 (digestOf c.salt tokenIds) tokenIds)) := by
  unfold observe
  split
  · exact .inr (.inl rfl)
  split
  · exact .inr (.inl rfl)
  split
  · exact .inl ⟨_, rfl⟩
  dsimp only
  split
  · exact .inr (.inr (.inl rfl))
  · rename_i hnew
    exact .inr (.inr (.inr ⟨hnew, rfl⟩))

theorem evict_salt (c : CacheFillCapture) : (evict c).2.salt = c.salt := by
  rcases evict_cases c with ⟨hevict, -⟩ | ⟨item, items, -, hevict⟩
  · rw [hevict]
  · rw [hevict]

/-- An eviction takes the oldest item, if it takes one, and counts it. -/
theorem evict_items (c : CacheFillCapture) :
    c.items = (evict c).1.toList ++ (evict c).2.items ∧ (evict c).2.captured = c.captured ∧
      (evict c).2.dropped = c.dropped + (evict c).1.toList.length := by
  rcases evict_cases c with ⟨hevict, -⟩ | ⟨item, items, hitems, hevict⟩
  · rw [hevict]
    exact ⟨rfl, rfl, rfl⟩
  · rw [hevict]
    exact ⟨hitems, rfl, rfl⟩

theorem Sound.observe {s : CaptureRun} (h : Sound s) (clientLabel : String) (tokenIds : List Int) :
    Sound (captureStep s (.observe clientLabel tokenIds)).2 := by
  unfold captureStep
  dsimp only
  rcases observe_cases s.capture clientLabel tokenIds with ⟨e, hcall⟩ | hcall | hcall | ⟨hnew, hcall⟩
  · rw [hcall]
    exact h
  · rw [hcall]
    exact h
  · rw [hcall]
    exact ⟨h.tracked.congr rfl rfl rfl rfl, h.order, h.arrived, h.counted⟩
  · rw [hcall]
    obtain ⟨htracked, hroom, hseen⟩ := h.tracked.after_evict
    obtain ⟨hitems, hcaptured, hdropped⟩ := evict_items s.capture
    have hlast : (append (evict s.capture).2 (digestOf s.capture.salt tokenIds) tokenIds).items =
        (evict s.capture).2.items ++ [⟨Hex.encode (digestOf s.capture.salt tokenIds), tokenIds, tokenIds.length⟩] := rfl
    refine ⟨htracked.after_append (by rw [evict_salt]) (fun hin => hnew (hseen hin)) hroom, ?_, ?_, ?_⟩
    · dsimp only
      rw [hlast, List.getLast?_concat, h.order, hitems]
      simp only [Option.toList_some, List.append_assoc]
    · dsimp only
      rw [hlast, List.getLast?_concat, Option.toList_some, List.length_append, List.length_singleton, ← h.arrived, ← hcaptured]
      rfl
    · have hcounted := h.counted
      rw [hitems, List.length_append] at hcounted
      dsimp only
      rw [hlast, List.length_append, List.length_singleton]
      show (evict s.capture).2.captured + 1 = _ + 1 + _ + (evict s.capture).2.dropped
      omega

theorem Sound.drain {s : CaptureRun} (h : Sound s) (maxItems : Int) : Sound (captureStep s (.drain maxItems)).2 := by
  unfold captureStep CacheFill.drain
  dsimp only
  split
  · rename_i hcall
    split at hcall
    · cases hcall
    · obtain ⟨hitems, rfl⟩ := Prod.mk.inj hcall
      obtain rfl := Except.ok.inj hitems
      obtain ⟨hout, hrest⟩ := drainLoop_items maxItems.toNat s.capture.items s.capture.seen
      have hall := List.take_append_drop maxItems.toNat s.capture.items
      refine ⟨h.tracked.after_drainLoop maxItems.toNat rfl rfl rfl rfl, ?_, h.arrived, ?_⟩
      · dsimp only
        rw [hout, hrest, h.order, List.append_assoc, hall]
      · have hcounted := h.counted
        have hlength := congrArg List.length hall
        rw [List.length_append] at hlength
        dsimp only
        rw [hout, hrest]
        omega
  · rename_i hcall
    split at hcall
    · obtain ⟨-, rfl⟩ := Prod.mk.inj hcall
      exact h
    · cases hcall

theorem evict_maxItems (c : CacheFillCapture) : (evict c).2.maxItems = c.maxItems := by
  rcases evict_cases c with ⟨hevict, -⟩ | ⟨item, items, -, hevict⟩
  · rw [hevict]
  · rw [hevict]

/-- No call changes the bound. -/
theorem captureStep_maxItems (s : CaptureRun) (call : CaptureCall) :
    (captureStep s call).2.capture.maxItems = s.capture.maxItems := by
  cases call with
  | observe clientLabel tokenIds =>
    unfold captureStep
    dsimp only
    rcases observe_cases s.capture clientLabel tokenIds with ⟨e, hcall⟩ | hcall | hcall | ⟨-, hcall⟩
    · rw [hcall]
    · rw [hcall]
    · rw [hcall]
    · rw [hcall]
      exact evict_maxItems s.capture
  | drain maxItems =>
    unfold captureStep CacheFill.drain
    dsimp only
    by_cases hle : maxItems ≤ 0
    · rw [if_pos hle]
    · rw [if_neg hle]

/-- In every run of a new queue the set has exactly the digests of the queued items, these are all different and no more than
the bound, the items leave in the order in which they came, and every captured item is queued, drained or dropped. -/
theorem deliveries_of_run {maxItems : Int} {excludedLabelPrefix : String} {salt : List UInt8} {c : CacheFillCapture}
    (hinit : init maxItems excludedLabelPrefix salt = .ok c) (calls : List CaptureCall) :
    Sound (Machine.final captureStep ⟨c, [], [], 0⟩ calls) ∧
      (Machine.final captureStep ⟨c, [], [], 0⟩ calls).capture.maxItems = maxItems := by
  have hempty : c.items = [] ∧ c.seen = ∅ ∧ c.captured = 0 ∧ c.dropped = 0 ∧ (c.maxItems : Int) = maxItems := by
    unfold init at hinit
    split at hinit
    · cases hinit
    · obtain rfl := Except.ok.inj hinit
      refine ⟨rfl, rfl, rfl, rfl, ?_⟩
      dsimp only
      omega
  obtain ⟨hitems, hseen, hcaptured, hdropped, hmax⟩ := hempty
  have hstart : Sound ⟨c, [], [], 0⟩ := by
    refine ⟨⟨?_, ?_, ?_, ?_, ?_⟩, ?_, hcaptured, ?_⟩
    · rw [hitems]
      exact List.forall_mem_nil _
    · rw [hitems]
      exact List.forall_mem_nil _
    · rw [hitems]
      exact List.nodup_nil
    · rw [hitems, hseen]
      rfl
    · rw [hitems]
      exact Nat.zero_le _
    · rw [hitems]
      rfl
    · rw [hitems, hcaptured, hdropped]
      rfl
  refine ⟨Machine.final_of_step (fun s call hs => ?_) calls hstart,
    Machine.final_of_step (I := fun s : CaptureRun => (s.capture.maxItems : Int) = maxItems) (fun s call hs => ?_) calls hmax⟩
  · cases call with
    | observe clientLabel tokenIds => exact hs.observe clientLabel tokenIds
    | drain n => exact hs.drain n
  · rw [captureStep_maxItems]
    exact hs

/-- A queue for one item. -/
def oneItem : CacheFillCapture := ⟨1, "cache-fill-", [], [], ∅, 0, 0, 0, Nat.one_pos⟩

theorem sound_oneItem :
    Sound (Machine.final captureStep ⟨oneItem, [], [], 0⟩
        [.observe "chat" [1, 2], .observe "chat" [3], .observe "chat" [1, 2], .drain 4]) ∧
      (Machine.final captureStep ⟨oneItem, [], [], 0⟩
        [.observe "chat" [1, 2], .observe "chat" [3], .observe "chat" [1, 2], .drain 4]).capture.maxItems = (1 : Int) :=
  deliveries_of_run (show init 1 "cache-fill-" [] = .ok oneItem from rfl) _

end CacheFill

end KakeyaEngine
