/-!
# Lossy decoding of a code

A `PrefixCode` says what the elements that were read since the last character are: the beginning of a character, a
character, or neither.  `decode` is lossy decoding: the longest beginning of a character that does not go on as one is
replaced by a single replacement, and so is what is left at the end.

A reader that shows its text after every chunk, and each time only what it has more than before, by count (`shown`), has
shown the decoded text in the end if and only if no character is split by the chunks (`shown_eq_iff`), the replacement
apart.
-/

/-- What the elements since the last character are. -/
inductive Reading (γ : Type)
  | invalid
  | more
  | complete (c : γ)
deriving DecidableEq

/-- A code in which every beginning of a character wants more, and what may begin a character does not continue one. -/
structure PrefixCode (β γ : Type) where
  read : List β → Reading γ
  read_nil : read [] = .more
  more_of_append : ∀ {u : List β} {b : β} {w : List β}, read (u ++ b :: w) ≠ .invalid → read u = .more
  invalid_of_begin : ∀ {u : List β} {b : β}, u ≠ [] → read u = .more → read [b] ≠ .invalid →
    read (u ++ [b]) = .invalid

namespace PrefixCode

variable {β γ : Type} (code : PrefixCode β γ) (replacement : γ)

/-! ### Decoding -/

/-- Reads an element after the beginning `u` of a character: the characters that are decoded, and what is pending. -/
def step (u : List β) (b : β) : List γ × List β :=
  match code.read (u ++ [b]) with
  | .more => ([], u ++ [b])
  | .complete c => ([c], [])
  | .invalid =>
    if u = [] then ([replacement], [])
    else
      match code.read [b] with
      | .more => ([replacement], [b])
      | .complete c => ([replacement, c], [])
      | .invalid => ([replacement, replacement], [])

/-- Reads elements after the beginning `u` of a character. -/
def feed (u : List β) : List β → List γ × List β
  | [] => ([], u)
  | b :: bs =>
    let s := code.step replacement u b
    let r := feed s.2 bs
    (s.1 ++ r.1, r.2)

/-- What the end makes of a pending beginning. -/
def finish (u : List β) : List γ := if u = [] then [] else [replacement]

/-- Decodes what follows the beginning `u` of a character. -/
def decodeFrom (u bs : List β) : List γ :=
  (code.feed replacement u bs).1 ++ finish replacement (code.feed replacement u bs).2

/-- Lossy decoding. -/
def decode (bs : List β) : List γ := code.decodeFrom replacement [] bs

/-- What a reader shows of the chunks that follow `bs`: after each of them what its text has more than before, by count. -/
def shown (bs : List β) : List (List β) → List γ
  | [] => []
  | c :: cs =>
    (code.decode replacement (bs ++ c)).drop (code.decode replacement bs).length ++ shown (bs ++ c) cs

/-- No character but the replacement is split by the chunks. -/
def Unsplit (chunks : List (List β)) : Prop :=
  ∀ xs ys a u w z c, chunks = xs ++ ys → xs.flatten = a ++ u → ys.flatten = w ++ z → u ≠ [] → w ≠ [] →
    code.read (u ++ w) = .complete c → c = replacement

variable {code replacement}

/-! ### Reading in parts -/

theorem feed_append (u xs ys : List β) :
    code.feed replacement u (xs ++ ys) =
      ((code.feed replacement u xs).1 ++ (code.feed replacement (code.feed replacement u xs).2 ys).1,
        (code.feed replacement (code.feed replacement u xs).2 ys).2) := by
  induction xs generalizing u with
  | nil => rfl
  | cons x xs ih =>
    simp only [List.cons_append, feed]
    rw [ih, List.append_assoc]

theorem decodeFrom_append (u xs ys : List β) :
    code.decodeFrom replacement u (xs ++ ys) =
      (code.feed replacement u xs).1 ++ code.decodeFrom replacement (code.feed replacement u xs).2 ys := by
  unfold decodeFrom
  rw [feed_append, List.append_assoc]

@[simp] theorem finish_nil : finish replacement ([] : List β) = [] := if_pos rfl

theorem finish_of_ne {u : List β} (h : u ≠ []) : finish replacement u = [replacement] := if_neg h

variable (code replacement) in
/-- What is pending is the beginning of a character, and the end of what was read. -/
theorem step_pending (u : List β) (b : β) :
    code.read (code.step replacement u b).2 = .more ∧ (code.step replacement u b).2 <:+ u ++ [b] := by
  unfold step
  cases hread : code.read (u ++ [b]) with
  | more => exact ⟨hread, List.suffix_refl _⟩
  | complete c => exact ⟨code.read_nil, List.nil_suffix⟩
  | invalid =>
    by_cases hne : u = []
    · rw [if_pos hne]
      exact ⟨code.read_nil, List.nil_suffix⟩
    · rw [if_neg hne]
      cases hb : code.read [b] with
      | more => exact ⟨hb, List.suffix_append _ _⟩
      | complete c => exact ⟨code.read_nil, List.nil_suffix⟩
      | invalid => exact ⟨code.read_nil, List.nil_suffix⟩

variable (code replacement) in
theorem feed_pending {u : List β} (hu : code.read u = .more) (bs : List β) :
    code.read (code.feed replacement u bs).2 = .more ∧ (code.feed replacement u bs).2 <:+ u ++ bs := by
  induction bs generalizing u with
  | nil => exact ⟨hu, by rw [List.append_nil]; exact List.suffix_refl _⟩
  | cons b bs ih =>
    obtain ⟨hmore, hsuffix⟩ := step_pending code replacement u b
    obtain ⟨hmore', hsuffix'⟩ := ih hmore
    refine ⟨hmore', hsuffix'.trans ?_⟩
    obtain ⟨front, hfront⟩ := hsuffix
    exact ⟨front, by rw [← List.append_assoc, hfront, List.append_assoc]; rfl⟩

/-! ### Characters in two parts -/

theorem feed_cons (u : List β) (b : β) (bs : List β) :
    code.feed replacement u (b :: bs) =
      ((code.step replacement u b).1 ++ (code.feed replacement (code.step replacement u b).2 bs).1,
        (code.feed replacement (code.step replacement u b).2 bs).2) := rfl

theorem step_more {u : List β} {b : β} (h : code.read (u ++ [b]) = .more) :
    code.step replacement u b = ([], u ++ [b]) := by
  unfold step
  rw [h]

theorem step_complete {u : List β} {b : β} {c : γ} (h : code.read (u ++ [b]) = .complete c) :
    code.step replacement u b = ([c], []) := by
  unfold step
  rw [h]

/-- The beginning of a sequence that is not invalid wants more. -/
theorem more_of_complete {u w : List β} {c : γ} (hw : w ≠ []) (h : code.read (u ++ w) = .complete c) :
    code.read u = .more := by
  obtain ⟨b, w, rfl⟩ := List.exists_cons_of_ne_nil hw
  exact code.more_of_append (fun hinvalid => by rw [h] at hinvalid; cases hinvalid)

/-- A beginning that goes on as a character gives the character. -/
theorem feed_complete {u w : List β} {c : γ} (hw : w ≠ []) (h : code.read (u ++ w) = .complete c) (z : List β) :
    code.feed replacement u (w ++ z) = (c :: (code.feed replacement [] z).1, (code.feed replacement [] z).2) := by
  induction w generalizing u with
  | nil => exact absurd rfl hw
  | cons b w ih =>
    rw [List.cons_append, feed_cons]
    cases w with
    | nil =>
      rw [step_complete h]
      rfl
    | cons b' w =>
      rw [List.append_cons] at h
      rw [step_more (more_of_complete (by simp) h), ih (by simp) h]
      rfl

/-- A beginning that goes on as one gives nothing. -/
theorem feed_more {u w : List β} (h : code.read (u ++ w) = .more) : code.feed replacement u w = ([], u ++ w) := by
  induction w generalizing u with
  | nil =>
    rw [List.append_nil]
    rfl
  | cons b w ih =>
    rw [List.append_cons] at h
    have hmore : code.read (u ++ [b]) = .more := by
      cases w with
      | nil => rwa [List.append_nil] at h
      | cons b' w => exact code.more_of_append (fun hinvalid => by rw [h] at hinvalid; cases hinvalid)
    rw [feed_cons, step_more hmore, ih h, ← List.append_cons]
    rfl

/-- The beginning of a character is pending once it is read, whatever was pending before it. -/
theorem feed_begin {v u : List β} (hv : code.read v = .more) (hne : u ≠ []) (hu : code.read u = .more) :
    (code.feed replacement v u).2 = u := by
  obtain ⟨b, w, rfl⟩ := List.exists_cons_of_ne_nil hne
  have hb : code.read [b] = .more := by
    cases w with
    | nil => exact hu
    | cons b' w => exact code.more_of_append (u := [b]) (fun hinvalid => by rw [← List.singleton_append, hinvalid] at hu; cases hu)
  have hpending : (code.step replacement v b).2 = [b] := by
    by_cases hempty : v = []
    · subst hempty
      rw [step_more hb]
      rfl
    · have hinvalid : code.read (v ++ [b]) = .invalid :=
        code.invalid_of_begin hempty hv (fun hinvalid => by rw [hb] at hinvalid; cases hinvalid)
      unfold step
      rw [hinvalid]
      dsimp only
      rw [if_neg hempty, hb]
  rw [feed_cons, hpending, feed_more hu]
  rfl

variable (code replacement) in
/-- A pending beginning gives a replacement, or the character as which it goes on. -/
theorem decodeFrom_pending {u : List β} (hne : u ≠ []) (ys : List β) :
    ∃ x rest, code.decodeFrom replacement u ys = x :: rest ∧
      (x = replacement ∨ ∃ w z, ys = w ++ z ∧ w ≠ [] ∧ code.read (u ++ w) = .complete x) := by
  induction ys generalizing u with
  | nil =>
    refine ⟨replacement, [], ?_, Or.inl rfl⟩
    unfold decodeFrom
    rw [feed, finish_of_ne hne]
    rfl
  | cons b ys ih =>
    have hsplit : code.decodeFrom replacement u (b :: ys) =
        (code.step replacement u b).1 ++ code.decodeFrom replacement (code.step replacement u b).2 ys := by
      unfold decodeFrom
      rw [feed_cons, List.append_assoc]
    rw [hsplit]
    cases hread : code.read (u ++ [b]) with
    | more =>
      obtain ⟨x, rest, hdecode, hx⟩ := ih (u := u ++ [b]) (by simp)
      rw [step_more hread, List.nil_append, hdecode]
      refine ⟨x, rest, rfl, hx.imp_right ?_⟩
      rintro ⟨w, z, rfl, -, hcomplete⟩
      exact ⟨b :: w, z, rfl, by simp, by rw [List.append_cons]; exact hcomplete⟩
    | complete c =>
      rw [step_complete hread]
      exact ⟨c, _, rfl, Or.inr ⟨[b], ys, rfl, by simp, hread⟩⟩
    | invalid =>
      -- the replacement stands for what was pending
      unfold step
      rw [hread]
      dsimp only
      rw [if_neg hne]
      cases code.read [b] with
      | more => exact ⟨replacement, _, rfl, Or.inl rfl⟩
      | complete c => exact ⟨replacement, _, rfl, Or.inl rfl⟩
      | invalid => exact ⟨replacement, _, rfl, Or.inl rfl⟩

/-! ### Showing a text by count -/

variable (code replacement) in
/-- Every beginning that is pending between two chunks is replaced in the end. -/
def Settled (u : List β) (chunks : List (List β)) : Prop :=
  ∀ xs ys, chunks = xs ++ ys → (code.feed replacement u xs.flatten).2 ≠ [] →
    (code.decodeFrom replacement (code.feed replacement u xs.flatten).2 ys.flatten).head? = some replacement

theorem settled_cons (u : List β) (c : List β) (cs : List (List β)) :
    code.Settled replacement u (c :: cs) ↔
      (u ≠ [] → (code.decodeFrom replacement u (c ++ cs.flatten)).head? = some replacement) ∧
        code.Settled replacement (code.feed replacement u c).2 cs := by
  constructor
  · intro h
    refine ⟨fun hne => h [] (c :: cs) rfl hne, fun xs ys hcs hne => ?_⟩
    have hfeed : (code.feed replacement u (c :: xs).flatten).2 =
        (code.feed replacement (code.feed replacement u c).2 xs.flatten).2 := by
      rw [List.flatten_cons, feed_append]
    rw [← hfeed] at hne ⊢
    exact h (c :: xs) ys (by rw [hcs]; rfl) hne
  · rintro ⟨hfirst, hrest⟩ xs ys hcs hne
    cases xs with
    | nil =>
      obtain rfl : c :: cs = ys := hcs
      exact hfirst hne
    | cons x xs =>
      obtain ⟨rfl, rfl⟩ := List.cons.inj hcs
      have hfeed : (code.feed replacement u (c :: xs).flatten).2 =
          (code.feed replacement (code.feed replacement u c).2 xs.flatten).2 := by
        rw [List.flatten_cons, feed_append]
      rw [hfeed] at hne ⊢
      exact hrest xs ys rfl hne

theorem decode_eq (bs : List β) :
    code.decode replacement bs =
      (code.feed replacement [] bs).1 ++ finish replacement (code.feed replacement [] bs).2 := rfl

variable (code replacement) in
/-- What was shown is the decoded text if and only if what was pending is replaced. -/
theorem shown_eq_iff_settled (bs : List β) (chunks : List (List β)) :
    finish replacement (code.feed replacement [] bs).2 ++ code.shown replacement bs chunks =
        code.decodeFrom replacement (code.feed replacement [] bs).2 chunks.flatten ↔
      code.Settled replacement (code.feed replacement [] bs).2 chunks := by
  induction chunks generalizing bs with
  | nil =>
    refine iff_of_true ?_ ?_
    · rw [shown, List.append_nil, List.flatten_nil]
      rfl
    · intro xs ys hnil hne
      obtain ⟨rfl, rfl⟩ := List.append_eq_nil_iff.1 hnil.symm
      have hpending : (code.feed replacement [] bs).2 ≠ [] := hne
      show (finish replacement (code.feed replacement [] bs).2).head? = some replacement
      rw [finish_of_ne hpending]
      rfl
  | cons c cs ih =>
    have hnext := ih (bs ++ c)
    have hfeed : (code.feed replacement [] (bs ++ c)).2 = (code.feed replacement (code.feed replacement [] bs).2 c).2 := by
      rw [feed_append]
    rw [hfeed] at hnext
    rw [settled_cons, shown, decode_eq, decode_eq, feed_append, List.flatten_cons, decodeFrom_append]
    generalize (code.feed replacement [] bs).2 = u at hnext ⊢
    generalize (code.feed replacement [] bs).1 = out
    dsimp only
    by_cases hu : u = []
    · -- nothing is pending, and what follows is new
      subst hu
      rw [finish_nil, List.nil_append, List.append_nil, List.append_assoc, List.drop_left, List.append_assoc,
        List.append_cancel_left_eq, hnext]
      exact ⟨fun h => ⟨fun hne => absurd rfl hne, h⟩, fun h => h.2⟩
    · -- a replacement was shown for what is pending
      obtain ⟨x, rest, hpending, -⟩ := decodeFrom_pending code replacement hu c
      unfold decodeFrom at hpending
      rw [finish_of_ne hu]
      cases hd : (code.feed replacement u c).1 with
      | nil =>
        -- it is still pending, and the same replacement stands for it
        have hne : (code.feed replacement u c).2 ≠ [] := by
          intro hnil
          rw [hd, hnil, finish_nil] at hpending
          cases hpending
        rw [finish_of_ne hne] at hnext ⊢
        rw [List.append_nil, List.drop_length, List.nil_append, List.nil_append, hnext]
        refine ⟨fun h => ⟨fun _ => ?_, h⟩, fun h => h.2⟩
        rw [← hnext.2 h]
        rfl
      | cons y d =>
        have hdrop : (out ++ y :: d ++ finish replacement (code.feed replacement u c).2).drop (out ++ [replacement]).length =
            d ++ finish replacement (code.feed replacement u c).2 := by
          rw [List.append_assoc, List.length_append, List.drop_append]
          simp
        rw [hdrop, List.append_assoc, List.singleton_append, List.cons_append, List.cons_eq_cons,
          List.append_cancel_left_eq, hnext]
        refine and_congr_left fun _ => ⟨fun h _ => ?_, fun h => ?_⟩
        · rw [← h]
          rfl
        · exact (Option.some.inj (h hu)).symm

/-- A reader that shows by count has shown the decoded text if and only if the chunks split no character but the
replacement. -/
theorem shown_eq_iff (chunks : List (List β)) :
    code.shown replacement [] chunks = code.decode replacement chunks.flatten ↔ code.Unsplit replacement chunks := by
  have hsettled := shown_eq_iff_settled code replacement [] chunks
  have hpending : ∀ bs : List β, code.read (code.feed replacement [] bs).2 = .more :=
    fun bs => (feed_pending code replacement code.read_nil bs).1
  refine Iff.trans hsettled ⟨fun h xs ys a u w z c hchunks hxs hys hu hw hread => ?_, fun h xs ys hchunks hne => ?_⟩
  · -- a character that is split is pending at the boundary
    have hu' : (code.feed replacement [] xs.flatten).2 = u := by
      rw [hxs, feed_append]
      exact feed_begin (hpending a) hu (more_of_complete hw hread)
    have hhead := h xs ys hchunks (by
      show (code.feed replacement [] xs.flatten).2 ≠ []
      rw [hu']
      exact hu)
    change (code.decodeFrom replacement (code.feed replacement [] xs.flatten).2 ys.flatten).head? = _ at hhead
    rw [hu', hys, decodeFrom, feed_complete hw hread] at hhead
    exact Option.some.inj hhead
  · change (code.decodeFrom replacement (code.feed replacement [] xs.flatten).2 ys.flatten).head? = _
    change (code.feed replacement [] xs.flatten).2 ≠ [] at hne
    obtain ⟨x, rest, hdecode, hx⟩ := decodeFrom_pending code replacement hne ys.flatten
    obtain ⟨a, ha⟩ := (feed_pending code replacement code.read_nil xs.flatten).2
    rw [hdecode]
    rcases hx with rfl | ⟨w, z, hys, hw, hread⟩
    · rfl
    · rw [h xs ys a _ w z x hchunks ha.symm hys hne hw hread]
      rfl

end PrefixCode
