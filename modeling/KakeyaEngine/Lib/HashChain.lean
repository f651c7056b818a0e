/-!
# Hash chains

A chain digests a list of blocks: each digest is computed from the one before it and the next block, so it commits to
the whole list up to there.  `tip` is the last digest, `tips` are all of them and `links` are the inputs that were
hashed on the way.  When no two of the links that occur have the same digest and none of them digests to the value
the chains start from, a tip determines its list of blocks (`tip_inj`).
-/

namespace HashChain

variable {δ β : Type} (link : δ → β → δ)

/-- The digest of a list of blocks, from a start value. -/
def tip (d : δ) (bs : List β) : δ := bs.foldl link d

/-- The digests after each block. -/
def tips : δ → List β → List δ
  | _, [] => []
  | d, b :: bs => link d b :: tips (link d b) bs

/-- The inputs that are digested along a chain. -/
def links : δ → List β → List (δ × β)
  | _, [] => []
  | d, b :: bs => (d, b) :: links (link d b) bs

@[simp] theorem length_tips (d : δ) (bs : List β) : (tips link d bs).length = bs.length := by
  induction bs generalizing d with
  | nil => rfl
  | cons b bs ih => simp [tips, ih]

/-- The digest at an index is the tip of the blocks up to it. -/
theorem getElem?_tips (d : δ) (bs : List β) (i : Nat) :
    (tips link d bs)[i]? = if i < bs.length then some (tip link d (bs.take (i + 1))) else none := by
  induction bs generalizing d i with
  | nil => simp [tips]
  | cons b bs ih =>
    cases i with
    | zero => simp [tips, tip]
    | succ i => simp [tips, tip, ih, List.take_succ_cons]

/-- The first digests are those of the first blocks. -/
theorem take_tips (d : δ) (bs : List β) (n : Nat) : (tips link d bs).take n = tips link d (bs.take n) := by
  induction bs generalizing d n with
  | nil => simp [tips]
  | cons b bs ih =>
    cases n with
    | zero => rfl
    | succ n => simp [tips, ih]

theorem tip_concat (d : δ) (bs : List β) (b : β) : tip link d (bs ++ [b]) = link (tip link d bs) b := by
  simp [tip]

theorem links_concat (d : δ) (bs : List β) (b : β) :
    links link d (bs ++ [b]) = links link d bs ++ [(tip link d bs, b)] := by
  induction bs generalizing d with
  | nil => rfl
  | cons c bs ih => simp [links, ih, tip]

/-- The links of the first blocks of a list are links of the list. -/
theorem mem_links_take {d : δ} {bs : List β} {n : Nat} {p : δ × β} (h : p ∈ links link d (bs.take n)) :
    p ∈ links link d bs := by
  induction bs generalizing d n with
  | nil => simpa using h
  | cons b bs ih =>
    cases n with
    | zero => simp [links] at h
    | succ n =>
      rw [List.take_succ_cons] at h
      rcases List.mem_cons.1 h with rfl | h
      · simp [links]
      · exact List.mem_cons_of_mem _ (ih h)

/-- Distinct links of a set have distinct digests, and none of them digests to the start value. -/
def CollisionFree (d : δ) (S : δ × β → Prop) : Prop :=
  (∀ p q, S p → S q → link p.1 p.2 = link q.1 q.2 → p = q) ∧ ∀ p, S p → link p.1 p.2 ≠ d

variable {link}

/-- Where no digest collides, the tip determines the list of blocks. -/
theorem tip_inj {d : δ} {S : δ × β → Prop} (hS : CollisionFree link d S) {xs ys : List β}
    (hx : ∀ p ∈ links link d xs, S p) (hy : ∀ p ∈ links link d ys, S p)
    (h : tip link d xs = tip link d ys) : xs = ys := by
  -- the last link of one list is the last link of the other; then the lists without it have the same tip
  induction hn : xs.length generalizing xs ys with
  | zero =>
    obtain rfl : xs = [] := List.eq_nil_of_length_eq_zero hn
    rcases List.eq_nil_or_concat ys with rfl | ⟨ys', y, rfl⟩
    · rfl
    · have hl : S (tip link d ys', y) := hy _ (by simp [links_concat])
      rw [List.concat_eq_append, tip_concat] at h
      exact absurd h.symm (hS.2 _ hl)
  | succ n ih =>
    rcases List.eq_nil_or_concat xs with rfl | ⟨xs', x, rfl⟩
    · simp at hn
    have hl : S (tip link d xs', x) := hx _ (by simp [links_concat])
    rcases List.eq_nil_or_concat ys with rfl | ⟨ys', y, rfl⟩
    · rw [List.concat_eq_append, tip_concat] at h
      exact absurd h (hS.2 _ hl)
    simp only [List.concat_eq_append] at hx hy h hn ⊢
    have hl' : S (tip link d ys', y) := hy _ (by simp [links_concat])
    rw [tip_concat, tip_concat] at h
    have e := hS.1 _ _ hl hl' h
    obtain ⟨ht, rfl⟩ := Prod.mk.inj e
    have hxs : xs' = ys' := by
      refine ih ?_ ?_ ht (by simpa using hn)
      · intro p hp
        exact hx p (by rw [links_concat]; exact List.mem_append_left _ hp)
      · intro p hp
        exact hy p (by rw [links_concat]; exact List.mem_append_left _ hp)
    rw [hxs]

end HashChain
