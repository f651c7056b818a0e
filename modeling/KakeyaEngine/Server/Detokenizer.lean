import KakeyaEngine.Lib.Utf8
import KakeyaEngine.Session.Coordinator

/-!
# The text of a streamed answer

`_stream_session` shows after every token what the text of all tokens so far has more than the one before it, by count;
the answer that is not streamed is the text of all tokens.  A byte that is only the beginning of a character is decoded as
U+FFFD, which the text later replaces and the stream does not: both texts agree exactly when no character but U+FFFD has
its bytes in two tokens (`streamed_text_iff`).

A text is the list of its characters.
-/

namespace KakeyaEngine

/-- A byte-level tokenizer. -/
structure ByteLevelTokenizer where
  tokenBytes : Token → List UInt8
  special : Token → Bool := fun _ => false

namespace ByteLevelTokenizer

variable (tokenizer : ByteLevelTokenizer)

/-- `decode`. -/
def decode (tokenIds : List Token) (skipSpecialTokens : Bool) : List Char :=
  Utf8.decode ((if skipSpecialTokens then tokenIds.filter (fun t => !tokenizer.special t) else tokenIds).flatMap
    tokenizer.tokenBytes)

/-- The bytes of a token in a text without the special tokens. -/
def shownBytes (t : Token) : List UInt8 := if tokenizer.special t then [] else tokenizer.tokenBytes t

/-- No character but U+FFFD has its bytes in two tokens or more. -/
def WholeCharacters (tokenIds : List Token) : Prop :=
  ∀ xs ys a u w z c, tokenIds = xs ++ ys → xs.flatMap tokenizer.shownBytes = a ++ u →
    ys.flatMap tokenizer.shownBytes = w ++ z → u ≠ [] → w ≠ [] → u ++ w = String.utf8EncodeChar c → c = Utf8.replacement

end ByteLevelTokenizer

/-- `_StreamingDetokenizer`. -/
structure StreamingDetokenizer where
  tokenizer : ByteLevelTokenizer
  allIds : List Token := []
  decodedSoFar : List Char := []

namespace StreamingDetokenizer

/-- `feed`. -/
def feed (tokenId : Token) (d : StreamingDetokenizer) : List Char × StreamingDetokenizer :=
  let allIds := d.allIds ++ [tokenId]
  let full := d.tokenizer.decode allIds true
  (full.drop d.decodedSoFar.length, { d with allIds := allIds, decodedSoFar := full })

/-- The deltas of tokens that are fed one by one. -/
def deltas (d : StreamingDetokenizer) : List Token → List (List Char)
  | [] => []
  | t :: ts => (d.feed t).1 :: deltas (d.feed t).2 ts

end StreamingDetokenizer

/-- The content of the chunks that `_stream_session` sends. -/
def streamSession (d : StreamingDetokenizer) : List GenerateEvent → List (List Char)
  | [] => []
  | .token tokenId :: events =>
    let (delta, d) := d.feed tokenId
    if delta = [] then streamSession d events else delta :: streamSession d events
  | .historyTruncated _ :: events => streamSession d events
  | .done _ _ _ _ :: events => streamSession d events

/-- The tokens of `_collect_session_tokens`. -/
def collectSessionTokens : List GenerateEvent → List Token
  | [] => []
  | .token tokenId :: events => tokenId :: collectSessionTokens events
  | .historyTruncated _ :: events => collectSessionTokens events
  | .done _ _ _ _ :: events => collectSessionTokens events

/-- The text of an answer that is not streamed. -/
def completionText (tokenizer : ByteLevelTokenizer) (events : List GenerateEvent) : List Char :=
  tokenizer.decode (collectSessionTokens events) true

namespace StreamingDetokenizer

variable {tokenizer : ByteLevelTokenizer}

theorem decode_shown (tokenIds : List Token) :
    tokenizer.decode tokenIds true = Utf8.decode (tokenIds.flatMap tokenizer.shownBytes) := by
  unfold ByteLevelTokenizer.decode
  rw [if_pos rfl]
  congr 1
  induction tokenIds with
  | nil => rfl
  | cons t ts ih =>
    rw [List.flatMap_cons, ← ih, List.filter_cons, ByteLevelTokenizer.shownBytes]
    cases tokenizer.special t with
    | true => simp
    | false => simp

variable (tokenizer) in
/-- A detokenizer that has been fed tokens shows by count what follows them. -/
theorem deltas_flatten (fed ts : List Token) :
    (deltas ⟨tokenizer, fed, tokenizer.decode fed true⟩ ts).flatten =
      Utf8.code.shown Utf8.replacement (fed.flatMap tokenizer.shownBytes) (ts.map tokenizer.shownBytes) := by
  induction ts generalizing fed with
  | nil => rfl
  | cons t ts ih =>
    have hbytes : (fed ++ [t]).flatMap tokenizer.shownBytes = fed.flatMap tokenizer.shownBytes ++ tokenizer.shownBytes t := by
      rw [List.flatMap_append, List.flatMap_singleton]
    rw [List.map_cons, PrefixCode.shown, ← hbytes, ← ih, deltas, List.flatten_cons]
    unfold feed
    dsimp only
    rw [decode_shown, decode_shown]
    rfl

/-- The chunks carry the deltas, without the empty ones. -/
theorem streamSession_flatten (d : StreamingDetokenizer) (events : List GenerateEvent) :
    (streamSession d events).flatten = (deltas d (collectSessionTokens events)).flatten := by
  induction events generalizing d with
  | nil => rfl
  | cons e events ih =>
    cases e with
    | token t =>
      unfold streamSession collectSessionTokens deltas
      rw [List.flatten_cons, ← ih]
      dsimp only
      by_cases hdelta : (d.feed t).1 = []
      · rw [if_pos hdelta, hdelta, List.nil_append]
      · rw [if_neg hdelta, List.flatten_cons]
    | historyTruncated n => exact ih d
    | done reason n t t' => exact ih d

/-- The tokens split no character in the sense of the code. -/
theorem unsplit_iff (tokenIds : List Token) :
    Utf8.code.Unsplit Utf8.replacement (tokenIds.map tokenizer.shownBytes) ↔ tokenizer.WholeCharacters tokenIds := by
  constructor
  · intro h xs ys a u w z c hids hxs hys hu hw hchar
    refine h (xs.map tokenizer.shownBytes) (ys.map tokenizer.shownBytes) a u w z c ?_ ?_ ?_ hu hw
      (Utf8.read_eq_complete_iff.2 hchar)
    · rw [hids, List.map_append]
    · rw [← hxs, List.flatMap_def]
    · rw [← hys, List.flatMap_def]
  · intro h xs ys a u w z c hchunks hxs hys hu hw hread
    obtain ⟨xs, ys, rfl, rfl, rfl⟩ := List.map_eq_append_iff.1 hchunks
    refine h xs ys a u w z c rfl ?_ ?_ hu hw (Utf8.read_eq_complete_iff.1 hread)
    · rw [← hxs, List.flatMap_def]
    · rw [← hys, List.flatMap_def]

theorem deltas_eq_iff (tokenizer : ByteLevelTokenizer) (tokenIds : List Token) :
    (deltas { tokenizer } tokenIds).flatten = tokenizer.decode tokenIds true ↔ tokenizer.WholeCharacters tokenIds := by
  have hshown := deltas_flatten tokenizer [] tokenIds
  have hempty : tokenizer.decode [] true = [] := rfl
  rw [hempty] at hshown
  rw [hshown, decode_shown, List.flatMap_def, ← unsplit_iff, ← PrefixCode.shown_eq_iff]
  rfl

end StreamingDetokenizer

/-- When a streamed answer is the answer.  The deltas of the tokens of a generation, and the chunks of its stream, make up
the text of the answer that is not streamed if and only if no character but U+FFFD has its bytes in two tokens or more. -/
theorem streamed_text_iff (tokenizer : ByteLevelTokenizer) (events : List GenerateEvent) :
    ((StreamingDetokenizer.deltas { tokenizer } (collectSessionTokens events)).flatten = completionText tokenizer events ↔
      tokenizer.WholeCharacters (collectSessionTokens events)) ∧
    ((streamSession { tokenizer } events).flatten = completionText tokenizer events ↔
      tokenizer.WholeCharacters (collectSessionTokens events)) := by
  have hdeltas := StreamingDetokenizer.deltas_eq_iff tokenizer (collectSessionTokens events)
  refine ⟨hdeltas, ?_⟩
  rw [StreamingDetokenizer.streamSession_flatten]
  exact hdeltas

/-- A tokenizer with a token for each byte. -/
def byteTokenizer : ByteLevelTokenizer where
  tokenBytes t := [UInt8.ofNat t.toNat]

/-- The two bytes of U+00E9 in two tokens: U+FFFD is streamed, and the answer is the character. -/
theorem split_character_streamed :
    (streamSession { tokenizer := byteTokenizer } [.token 0xC3, .token 0xA9, .done .eos 2 0 0]).flatten =
        [Char.ofNat 0xFFFD] ∧
      StreamingDetokenizer.deltas { tokenizer := byteTokenizer } [0xC3, 0xA9] = [[Char.ofNat 0xFFFD], []] ∧
      completionText byteTokenizer [.token 0xC3, .token 0xA9, .done .eos 2 0 0] = [Char.ofNat 0xE9] := by
  decide +kernel

end KakeyaEngine
