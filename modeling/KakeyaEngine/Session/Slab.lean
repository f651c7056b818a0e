import KakeyaEngine.Lib.Buffer
import KakeyaEngine.Lib.Fallible
import KakeyaEngine.Lib.Machine
import KakeyaEngine.Lib.Proc
import KakeyaEngine.Lib.SinkWindow

/-!
# The KV slab

`KVSlab` keeps the K/V entries of a session in two buffers of a fixed capacity.  When a block does not fit it slides the
window down inside the buffers and writes the block behind it.  What is live refines a plain list that keeps its first
`sink` and its last `window` entries (`slab_refines_list`).

A slot stands for the entries of a position in all layers and heads.  `torch` may refuse to copy between overlapping
ranges; which copies it refuses is a parameter.
-/

namespace KakeyaEngine

/-- `SlabConfig`; `__post_init__` refuses the sizes that are not positive. -/
structure SlabConfig where
  numLayers : Nat
  numHeads : Nat
  sinkSize : Nat
  windowSize : Nat
  headDim : Nat
  dtype : String
  numLayers_pos : 0 < numLayers
  numHeads_pos : 0 < numHeads
  windowSize_pos : 0 < windowSize
  headDim_pos : 0 < headDim

/-- `capacity`. -/
def SlabConfig.capacity (cfg : SlabConfig) : Nat := cfg.sinkSize + cfg.windowSize

/-- The exceptions of a slab. -/
inductive SlabError
  | valueError (message : String)
  | runtimeError (message : String)
deriving DecidableEq

/-- A tensor of new entries; if it has four dimensions, its steps are the slots along the third one. -/
structure StepTensor (α : Type) where
  shape : List Nat
  dtype : String
  steps : List α
  length_steps : ∀ l h t d, shape = [l, h, t, d] → steps.length = t

/-- `KVSlab`. -/
structure KVSlab (cfg : SlabConfig) (κ ν : Type) where
  keys : List κ
  values : List ν
  logicalSize : Nat := 0
  liveKvBytesOverride : Option Int := none
  length_keys : keys.length = cfg.capacity
  length_values : values.length = cfg.capacity

namespace KVSlab

open Fallible

variable {cfg : SlabConfig} {κ ν α : Type}

abbrev SlabProc (cfg : SlabConfig) (κ ν α : Type) : Type := Proc (KVSlab cfg κ ν) SlabError α

/-- `KVSlab.__init__`, with the entry that the buffers are filled with. -/
def create (cfg : SlabConfig) (zeroKey : κ) (zeroValue : ν) : KVSlab cfg κ ν where
  keys := List.replicate cfg.capacity zeroKey
  values := List.replicate cfg.capacity zeroValue
  length_keys := List.length_replicate
  length_values := List.length_replicate

/-! ### Validating a step -/

/-- `str` of a tuple. -/
def shapeText : List Nat → String
  | [] => "()"
  | [n] => "(" ++ toString n ++ ",)"
  | ns => "(" ++ ", ".intercalate (ns.map toString) ++ ")"

/-- `_validate_step_shape`. -/
def validateStepShape (cfg : SlabConfig) (t : StepTensor α) (name : String) : Except SlabError Unit :=
  match t.shape with
  | [l, h, _, d] =>
    if l ≠ cfg.numLayers then
      .error (.valueError (name ++ ".shape[0]=" ++ toString l ++ " does not match num_layers=" ++ toString cfg.numLayers))
    else if h ≠ cfg.numHeads then
      .error (.valueError (name ++ ".shape[1]=" ++ toString h ++ " does not match num_heads=" ++ toString cfg.numHeads))
    else if d ≠ cfg.headDim then
      .error (.valueError (name ++ ".shape[3]=" ++ toString d ++ " does not match head_dim=" ++ toString cfg.headDim))
    else if t.dtype ≠ cfg.dtype then
      .error (.valueError (name ++ ".dtype=" ++ t.dtype ++ " does not match slab dtype=" ++ cfg.dtype))
    else .ok ()
  | shape =>
    .error (.valueError (name ++ " must be 4-D [num_layers, num_heads, T, head_dim]; got shape " ++ shapeText shape))

/-- The checks of `append`: the number of new positions. -/
def validateAppend (cfg : SlabConfig) (keySteps : StepTensor κ) (valueSteps : StepTensor ν) : Except SlabError Nat := do
  validateStepShape cfg keySteps "key_steps"
  validateStepShape cfg valueSteps "value_steps"
  if keySteps.shape ≠ valueSteps.shape then
    .error (.valueError ("key_steps and value_steps shape mismatch: " ++ shapeText keySteps.shape ++ " vs " ++
      shapeText valueSteps.shape))
  else
    let t := (keySteps.shape[2]?).getD 0
    if t = 0 then .error (.valueError "append: T must be positive")
    else if cfg.windowSize < t then
      .error (.valueError ("append: T=" ++ toString t ++ " exceeds window_size=" ++ toString cfg.windowSize ++
        "; callers must split into multiple appends"))
    else .ok t

/-! ### Writing -/

/-- The message of a copy that is refused. -/
def overlapMessage : String :=
  "unsupported operation: some elements of the input tensor and the written-to tensor refer to a single memory location. " ++
    "Please clone() the tensor before performing the operation."

/-- The message of an assignment to a slice that is too short. -/
def sliceMessage (expected got : Nat) : String :=
  "The expanded size of the tensor (" ++ toString expected ++ ") must match the existing size (" ++ toString got ++
    ") at non-singleton dimension 2."

/-- The slab with a range of its keys copied to a lower place. -/
def slideKeys (dst src n : Nat) (s : KVSlab cfg κ ν) : KVSlab cfg κ ν :=
  { s with
    keys := Buffer.copyWithin s.keys dst src n
    length_keys := (Buffer.length_copyWithin _ _ _ _).trans s.length_keys }

def slideValues (dst src n : Nat) (s : KVSlab cfg κ ν) : KVSlab cfg κ ν :=
  { s with
    values := Buffer.copyWithin s.values dst src n
    length_values := (Buffer.length_copyWithin _ _ _ _).trans s.length_values }

/-- `self.keys[:, :, start:end, :] = key_steps`. -/
def writeKeys (start : Nat) (steps : List κ) : SlabProc cfg κ ν Unit := do
  let s ← Proc.get
  if h : start + steps.length ≤ cfg.capacity then
    Proc.modify fun _ => { s with
      keys := Buffer.overwrite s.keys start steps
      length_keys := (Buffer.length_overwrite (by rw [s.length_keys]; exact h)).trans s.length_keys }
  else Proc.raise (.runtimeError (sliceMessage (cfg.capacity - start) steps.length))

/-- `self.values[:, :, start:end, :] = value_steps`. -/
def writeValues (start : Nat) (steps : List ν) : SlabProc cfg κ ν Unit := do
  let s ← Proc.get
  if h : start + steps.length ≤ cfg.capacity then
    Proc.modify fun _ => { s with
      values := Buffer.overwrite s.values start steps
      length_values := (Buffer.length_overwrite (by rw [s.length_values]; exact h)).trans s.length_values }
  else Proc.raise (.runtimeError (sliceMessage (cfg.capacity - start) steps.length))

-- which copies inside a buffer are refused: the destination, the source and the number of slots
variable (refuses : Nat → Nat → Nat → Bool)

/-- The two copies of `_trim_window_to_fit`. -/
def slide (dst src n : Nat) : SlabProc cfg κ ν Unit :=
  if refuses dst src n then Proc.raise (.runtimeError overlapMessage)
  else do
    Proc.modify (slideKeys dst src n)
    Proc.modify (slideValues dst src n)

/-- `_trim_window_to_fit`. -/
def trimWindowToFit (nNew : Nat) : SlabProc cfg κ ν Unit := do
  let s ← Proc.get
  let excess := s.logicalSize + nNew - cfg.capacity
  if excess = 0 then pure ()
  else do
    let srcStart := cfg.sinkSize + excess
    if srcStart < s.logicalSize then slide refuses cfg.sinkSize srcStart (s.logicalSize - srcStart) else pure ()
    Proc.modify fun s => { s with logicalSize := s.logicalSize - excess }

/-- Slides the window if the new positions do not fit. -/
def makeRoom (t : Nat) : SlabProc cfg κ ν Unit := do
  let s ← Proc.get
  if cfg.capacity < s.logicalSize + t then trimWindowToFit refuses t else pure ()

/-- `append`. -/
def append (keySteps : StepTensor κ) (valueSteps : StepTensor ν) : SlabProc cfg κ ν Unit := do
  let t ← Proc.ofExcept (validateAppend cfg keySteps valueSteps)
  makeRoom refuses t
  let s ← Proc.get
  writeKeys s.logicalSize keySteps.steps
  writeValues s.logicalSize valueSteps.steps
  Proc.modify fun s' => { s' with logicalSize := s.logicalSize + t }

/-- `truncate`. -/
def truncate (drop : Int) : SlabProc cfg κ ν Int := do
  let s ← Proc.get
  if drop < 0 then Proc.raise (.valueError ("drop must be >= 0, got " ++ toString drop))
  else if (s.logicalSize : Int) < drop then
    Proc.raise (.valueError ("drop=" ++ toString drop ++ " exceeds logical_size=" ++ toString s.logicalSize))
  else do
    Proc.modify fun s => { s with logicalSize := s.logicalSize - drop.toNat }
    pure drop

/-- `reset`. -/
def reset : SlabProc cfg κ ν Unit := Proc.modify fun s => { s with logicalSize := 0, liveKvBytesOverride := none }

/-- A call of the slab. -/
inductive SlabOp (κ ν : Type)
  | append (keySteps : StepTensor κ) (valueSteps : StepTensor ν)
  | truncate (drop : Int)
  | reset

def SlabOp.perform (op : SlabOp κ ν) : SlabProc cfg κ ν Unit :=
  match op with
  | .append keySteps valueSteps => KVSlab.append refuses keySteps valueSteps
  | .truncate drop => do
    let _ ← KVSlab.truncate drop
    pure ()
  | .reset => KVSlab.reset

/-! ### Plain lists -/

/-- The entries of a session in plain lists. -/
structure PlainKV (κ ν : Type) where
  keys : List κ := []
  values : List ν := []

/-- A call on plain lists, which keep their first and last entries on overflow. -/
def PlainKV.perform (cfg : SlabConfig) (l : PlainKV κ ν) : SlabOp κ ν → PlainKV κ ν
  | .append keySteps valueSteps =>
    { keys := SinkWindow.trim cfg.sinkSize cfg.windowSize (l.keys ++ keySteps.steps)
      values := SinkWindow.trim cfg.sinkSize cfg.windowSize (l.values ++ valueSteps.steps) }
  | .truncate drop =>
    { keys := l.keys.take (l.keys.length - drop.toNat)
      values := l.values.take (l.values.length - drop.toNat) }
  | .reset => {}

/-- What is live in the slab, in its logical order. -/
def live (s : KVSlab cfg κ ν) : PlainKV κ ν where
  keys := s.keys.take s.logicalSize
  values := s.values.take s.logicalSize

/-! ### Appending -/

/-- A step that passes the check has the four dimensions. -/
theorem of_validateStepShape {step : StepTensor α} {name : String} (h : validateStepShape cfg step name = .ok ()) :
    ∃ l h t d, step.shape = [l, h, t, d] ∧ step.steps.length = t := by
  unfold validateStepShape at h
  split at h
  · rename_i l h' t d hshape
    exact ⟨l, h', t, d, hshape, step.length_steps l h' t d hshape⟩
  · cases h

/-- The checks leave blocks of the same length, which the window can hold. -/
theorem of_validateAppend {keySteps : StepTensor κ} {valueSteps : StepTensor ν} {t : Nat}
    (h : validateAppend cfg keySteps valueSteps = .ok t) :
    keySteps.steps.length = t ∧ valueSteps.steps.length = t ∧ t ≤ cfg.windowSize := by
  unfold validateAppend at h
  obtain ⟨_, hkeys, h⟩ := bind_eq_ok.mp h
  obtain ⟨_, hvalues, h⟩ := bind_eq_ok.mp h
  obtain ⟨l, n, tk, d, hkeyShape, hkeyLength⟩ := of_validateStepShape hkeys
  obtain ⟨l', n', tv, d', hvalueShape, hvalueLength⟩ := of_validateStepShape hvalues
  split at h
  · cases h
  rename_i hsame
  rw [not_not, hkeyShape, hvalueShape] at hsame
  dsimp only at h
  rw [hkeyShape] at h
  split at h
  · cases h
  split at h
  · cases h
  rename_i hwindow
  have htv : tk = tv := (List.cons.inj (List.cons.inj (List.cons.inj hsame).2).2).1
  cases h
  exact ⟨hkeyLength, hvalueLength.trans htv.symm, Nat.le_of_not_lt hwindow⟩

/-- The prefix of a full buffer after the window slid down by `excess`, and the block after it, are what the plain list
keeps. -/
theorem slid_eq_trim {buf block : List α} {size : Nat} (hbuf : buf.length = cfg.capacity) (hsize : size ≤ cfg.capacity)
    (hblock : block.length ≤ cfg.windowSize) (hfull : cfg.capacity < size + block.length) :
    let excess := size + block.length - cfg.capacity
    (Buffer.copyWithin buf cfg.sinkSize (cfg.sinkSize + excess) (size - (cfg.sinkSize + excess))).take (size - excess) ++ block
      = SinkWindow.trim cfg.sinkSize cfg.windowSize (buf.take size ++ block) := by
  intro excess
  have hcap : cfg.capacity = cfg.sinkSize + cfg.windowSize := rfl
  have hexcess : excess = size + block.length - cfg.capacity := rfl
  have hkept : size - excess = cfg.sinkSize + (size - (cfg.sinkSize + excess)) := by omega
  have hlive : (buf.take size).length = size := by
    rw [List.length_take]
    omega
  rw [hkept, Buffer.take_copyWithin (by omega) (by omega)]
  unfold SinkWindow.trim
  rw [List.length_append, hlive, if_neg (by omega), List.take_append_of_le_length (by omega), List.take_take,
    List.drop_append_of_le_length (by omega), List.drop_take, List.append_assoc, Nat.min_eq_left (by omega),
    show size - (size + block.length - cfg.windowSize) = size - (cfg.sinkSize + excess) by omega,
    show size + block.length - cfg.windowSize = cfg.sinkSize + excess by omega]

/-- Without an overflow the plain list keeps everything. -/
theorem fits_eq_trim {buf block : List α} {size : Nat} (hbuf : buf.length = cfg.capacity)
    (hfits : size + block.length ≤ cfg.capacity) :
    buf.take size ++ block = SinkWindow.trim cfg.sinkSize cfg.windowSize (buf.take size ++ block) := by
  have hcap : cfg.capacity = cfg.sinkSize + cfg.windowSize := rfl
  rw [SinkWindow.trim_of_le]
  rw [List.length_append, List.length_take]
  omega

theorem run_writeKeys (s : KVSlab cfg κ ν) {start : Nat} {steps : List κ} (h : start + steps.length ≤ cfg.capacity) :
    ∃ s', (writeKeys start steps).run s = (.ok (), s') ∧ s'.keys.take (start + steps.length) = s.keys.take start ++ steps ∧
      s'.values = s.values ∧ s'.logicalSize = s.logicalSize := by
  unfold writeKeys
  rw [Proc.run_get_bind, dif_pos h]
  exact ⟨_, rfl, Buffer.take_overwrite (by rw [s.length_keys]; exact h), rfl, rfl⟩

theorem run_writeValues (s : KVSlab cfg κ ν) {start : Nat} {steps : List ν} (h : start + steps.length ≤ cfg.capacity) :
    ∃ s', (writeValues start steps).run s = (.ok (), s') ∧
      s'.values.take (start + steps.length) = s.values.take start ++ steps ∧ s'.keys = s.keys ∧
      s'.logicalSize = s.logicalSize := by
  unfold writeValues
  rw [Proc.run_get_bind, dif_pos h]
  exact ⟨_, rfl, Buffer.take_overwrite (by rw [s.length_values]; exact h), rfl, rfl⟩

/-- Making room either is refused and changes nothing, or leaves room, and what is live is what the plain list keeps of it
once the block is written. -/
theorem run_makeRoom (s : KVSlab cfg κ ν) {ks : List κ} {vs : List ν} {t : Nat} (hks : ks.length = t) (hvs : vs.length = t)
    (hwindow : t ≤ cfg.windowSize) (hsize : s.logicalSize ≤ cfg.capacity) :
    ((makeRoom refuses t).run s = (.error (.runtimeError overlapMessage), s) ∧ ∃ dst src n, refuses dst src n = true) ∨
      ∃ s', (makeRoom refuses t).run s = (.ok (), s') ∧ s'.logicalSize + t ≤ cfg.capacity ∧
        s'.keys.take s'.logicalSize ++ ks =
          SinkWindow.trim cfg.sinkSize cfg.windowSize (s.keys.take s.logicalSize ++ ks) ∧
        s'.values.take s'.logicalSize ++ vs =
          SinkWindow.trim cfg.sinkSize cfg.windowSize (s.values.take s.logicalSize ++ vs) := by
  have hcap : cfg.capacity = cfg.sinkSize + cfg.windowSize := rfl
  unfold makeRoom
  rw [Proc.run_get_bind]
  by_cases hfull : cfg.capacity < s.logicalSize + t
  · rw [if_pos hfull]
    unfold trimWindowToFit
    rw [Proc.run_get_bind]
    dsimp only
    rw [if_neg (by omega)]
    have hkeys := slid_eq_trim s.length_keys hsize (hks ▸ hwindow) (hks ▸ hfull)
    have hvalues := slid_eq_trim s.length_values hsize (hvs ▸ hwindow) (hvs ▸ hfull)
    rw [hks] at hkeys
    rw [hvs] at hvalues
    by_cases hmoves : cfg.sinkSize + (s.logicalSize + t - cfg.capacity) < s.logicalSize
    · rw [if_pos hmoves]
      unfold slide
      by_cases hrefused : refuses cfg.sinkSize (cfg.sinkSize + (s.logicalSize + t - cfg.capacity))
          (s.logicalSize - (cfg.sinkSize + (s.logicalSize + t - cfg.capacity))) = true
      · left
        rw [if_pos hrefused]
        exact ⟨rfl, _, _, _, hrefused⟩
      · right
        rw [if_neg hrefused]
        exact ⟨_, rfl, show s.logicalSize - (s.logicalSize + t - cfg.capacity) + t ≤ cfg.capacity by omega, hkeys, hvalues⟩
    · right
      rw [if_neg hmoves]
      have hnone : s.logicalSize - (cfg.sinkSize + (s.logicalSize + t - cfg.capacity)) = 0 := by omega
      dsimp only at hkeys hvalues
      rw [hnone] at hkeys hvalues
      exact ⟨_, rfl, show s.logicalSize - (s.logicalSize + t - cfg.capacity) + t ≤ cfg.capacity by omega, hkeys, hvalues⟩
  · right
    rw [if_neg hfull]
    exact ⟨s, rfl, by omega, fits_eq_trim s.length_keys (by omega), fits_eq_trim s.length_values (by omega)⟩

/-! ### Refinement -/

/-- What the call of a slab does: it raises and changes nothing, or it returns and does what it does on the plain lists. -/
inductive Performed (s : KVSlab cfg κ ν) (op : SlabOp κ ν) : Except SlabError Unit × KVSlab cfg κ ν → Prop
  | raised (e : SlabError) : Performed s op (.error e, s)
  | returned {s' : KVSlab cfg κ ν} (hlive : s'.live = s.live.perform cfg op) (hsize : s'.logicalSize ≤ cfg.capacity) :
      Performed s op (.ok (), s')

theorem performed_append {s : KVSlab cfg κ ν} (hsize : s.logicalSize ≤ cfg.capacity) (keySteps : StepTensor κ)
    (valueSteps : StepTensor ν) :
    Performed s (.append keySteps valueSteps) ((append refuses keySteps valueSteps).run s) := by
  unfold append
  rcases hvalid : validateAppend cfg keySteps valueSteps with e | t
  · rw [Proc.run_bind_error (Proc.run_ofExcept (.error e) s)]
    exact .raised e
  rw [Proc.run_bind_ok (Proc.run_ofExcept (.ok t) s)]
  obtain ⟨hkeyLength, hvalueLength, hwindow⟩ := of_validateAppend hvalid
  rcases run_makeRoom refuses s hkeyLength hvalueLength hwindow hsize with ⟨hrefused, -⟩ | ⟨s₁, hroom, hfits, hkeys, hvalues⟩
  · rw [Proc.run_bind_error hrefused]
    exact .raised _
  rw [Proc.run_bind_ok hroom, Proc.run_get_bind]
  obtain ⟨s₂, hwritten, hkeys₂, hvalues₂, hsize₂⟩ := run_writeKeys s₁ (hkeyLength ▸ hfits)
  rw [Proc.run_bind_ok hwritten]
  obtain ⟨s₃, hwritten', hvalues₃, hkeys₃, hsize₃⟩ := run_writeValues s₂ (hvalueLength ▸ hfits)
  rw [Proc.run_bind_ok hwritten']
  rw [hkeyLength] at hkeys₂
  rw [hvalueLength, hvalues₂] at hvalues₃
  refine .returned ?_ hfits
  unfold live PlainKV.perform
  dsimp only
  rw [hkeys₃, hkeys₂, hvalues₃, hkeys, hvalues]

theorem performed_truncate {s : KVSlab cfg κ ν} (hsize : s.logicalSize ≤ cfg.capacity) (drop : Int) :
    Performed s (.truncate drop) ((SlabOp.truncate drop : SlabOp κ ν).perform refuses |>.run s) := by
  unfold SlabOp.perform truncate
  dsimp only
  by_cases hneg : drop < 0
  · rw [Proc.run_bind, Proc.run_get_bind, if_pos hneg]
    exact .raised _
  by_cases hmany : (s.logicalSize : Int) < drop
  · rw [Proc.run_bind, Proc.run_get_bind, if_neg hneg, if_pos hmany]
    exact .raised _
  rw [Proc.run_bind, Proc.run_get_bind, if_neg hneg, if_neg hmany]
  refine .returned ?_ (Nat.le_trans (Nat.sub_le _ _) hsize)
  have hkeys : (s.keys.take s.logicalSize).length = s.logicalSize := by
    rw [List.length_take, s.length_keys]
    omega
  have hvalues : (s.values.take s.logicalSize).length = s.logicalSize := by
    rw [List.length_take, s.length_values]
    omega
  unfold live PlainKV.perform
  dsimp only
  rw [hkeys, hvalues, List.take_take, List.take_take, Nat.min_eq_left (Nat.sub_le _ _)]

theorem performed {s : KVSlab cfg κ ν} (hsize : s.logicalSize ≤ cfg.capacity) (op : SlabOp κ ν) :
    Performed s op ((op.perform refuses).run s) := by
  cases op with
  | append keySteps valueSteps => exact performed_append refuses hsize keySteps valueSteps
  | truncate drop => exact performed_truncate refuses hsize drop
  | reset => exact .returned (by unfold live; simp [PlainKV.perform]) (Nat.zero_le _)

/-- A call that is made as it should be, on lists of these lengths. -/
def SlabOp.Accepted (cfg : SlabConfig) (size : Nat) : SlabOp κ ν → Prop
  | .append keySteps valueSteps => ∃ t, validateAppend cfg keySteps valueSteps = .ok t
  | .truncate drop => 0 ≤ drop ∧ drop ≤ size
  | .reset => True

/-- If no copy is refused the call returns. -/
theorem returns_of_accepted (hcopies : ∀ dst src n, refuses dst src n = false) {s : KVSlab cfg κ ν}
    (hsize : s.logicalSize ≤ cfg.capacity) {op : SlabOp κ ν} (hop : op.Accepted cfg s.logicalSize) :
    ((op.perform refuses).run s).1 = .ok () := by
  cases op with
  | append keySteps valueSteps =>
    obtain ⟨t, hvalid⟩ := hop
    obtain ⟨hkeyLength, hvalueLength, hwindow⟩ := of_validateAppend hvalid
    unfold SlabOp.perform append
    dsimp only
    rw [hvalid, Proc.run_bind_ok (Proc.run_ofExcept (.ok t) s)]
    rcases run_makeRoom refuses s hkeyLength hvalueLength hwindow hsize with ⟨-, dst, src, n, hrefused⟩ |
      ⟨s₁, hroom, hfits, -, -⟩
    · rw [hcopies] at hrefused
      cases hrefused
    rw [Proc.run_bind_ok hroom, Proc.run_get_bind]
    obtain ⟨s₂, hwritten, -⟩ := run_writeKeys s₁ (hkeyLength ▸ hfits)
    obtain ⟨s₃, hwritten', -⟩ := run_writeValues s₂ (hvalueLength ▸ hfits)
    rw [Proc.run_bind_ok hwritten, Proc.run_bind_ok hwritten']
    rfl
  | truncate drop =>
    obtain ⟨hneg, hmany⟩ := hop
    unfold SlabOp.perform truncate
    dsimp only
    rw [Proc.run_bind, Proc.run_get_bind, if_neg (by omega), if_neg (by omega)]
    rfl
  | reset => rfl

/-- A slab and plain lists side by side: the lists follow the calls that return. -/
def sideBySide (r : KVSlab cfg κ ν × PlainKV κ ν) (op : SlabOp κ ν) :
    Except SlabError Unit × (KVSlab cfg κ ν × PlainKV κ ν) :=
  match (op.perform refuses).run r.1 with
  | (.ok _, s) => (.ok (), s, r.2.perform cfg op)
  | (.error e, s) => (.error e, s, r.2)

/-- What is live agrees with the lists and fits. -/
structure Agrees (r : KVSlab cfg κ ν × PlainKV κ ν) : Prop where
  live : r.1.live = r.2
  fits : r.1.logicalSize ≤ cfg.capacity

theorem agrees_sideBySide {r : KVSlab cfg κ ν × PlainKV κ ν} (h : Agrees r) (op : SlabOp κ ν) :
    Agrees (sideBySide refuses r op).2 := by
  have hperformed := performed refuses h.fits op
  unfold sideBySide
  generalize (op.perform refuses).run r.1 = x at hperformed
  cases hperformed with
  | raised e => exact h
  | returned hlive hsize => exact ⟨by rw [hlive, h.live], hsize⟩

end KVSlab

end KakeyaEngine
