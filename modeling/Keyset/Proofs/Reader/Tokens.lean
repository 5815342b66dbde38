import Keyset.Proofs.Cursor.Token
import Keyset.Proofs.Reader.History

/-! # Tokens that a reader issues

A reader hands out the token of wherever it stands and checks nothing, while a
token is refused that is too long, or has a NaN or an infinity in it: there is no
JSON for these numbers, and null stands in their place. So what becomes of an
issued token depends on its length and on the numbers of the position
(`resume_issued`), and some issued tokens are refused (`Post.undefined_refused`).
Whatever the source, the position itself fits the ordering (`Keeps.fits`). -/

namespace Keyset

namespace Cursor

/-- What becomes of the token of a cursor that is read for the same ordering. -/
theorem ofToken_token_self (c : Cursor) (o : SortOrder) :
    ofToken (c.token o) o =
      if CursorError.sizeLimit < (c.token o).utf8ByteSize then
        .error (.tooLong (c.token o).utf8ByteSize)
      else if c.isFinite then (c.fit o).map fun _ => c
      else .error .payload := by
  rw [ofToken_token_eq, if_pos rfl]

/-- A cursor that is read from a token fits the ordering. -/
theorem fit_of_ofToken {token : String} {o : SortOrder} {c : Cursor}
    (h : ofToken token o = .ok c) : ∃ k, c.fit o = .ok k := by
  simp only [ofToken, bind, Except.bind] at h
  split at h
  · cases h
  · rename_i e he
    split at h
    · cases h
    · split at h
      · cases h
      · rename_i k hfit
        cases h
        exact ⟨k, hfit⟩

end Cursor

namespace Reader

variable {σ : Type}

/-- The position of a reader fits its ordering, whatever the source answered. -/
theorem Keeps.fits {page : Page} {past : List Exchange} {r : Reader} (h : Keeps page past r)
    (hn : page.order.Trimmed) (hstart : ∀ c ∈ page.position, ∃ k, c.fit page.order = .ok k) :
    ∀ c ∈ r.position, ∃ k, c.fit page.order = .ok k := by
  intro c hc
  have hposition := h.position
  cases hlast : (past.flatMap (·.rows)).getLast? with
  | none =>
    simp only [hlast] at hposition
    exact hstart c (hposition ▸ hc)
  | some last =>
    simp only [hlast] at hposition
    obtain ⟨d, hd, hposition⟩ := hposition
    rw [hposition] at hc
    cases hc
    exact ⟨_, Cursor.fit_ofRow hn hd⟩

/-- A token that can be read is resumed, whatever would be done if it could not. -/
theorem resume_of_token {page : Page} {token : String} {c : Cursor}
    (h : Cursor.ofToken token page.order = .ok c) (fallback : Fallback) :
    resume page token fallback = .ok ⟨page.after (some c), .ready, 0⟩ := by
  simp only [resume, h]
  refine start_eq_ok_iff.mpr ⟨rfl, fun d hd => ?_⟩
  rw [Page.eq_of_mem_after hd]
  exact Cursor.fit_of_ofToken h

/-- To resume is to read the token and to start from its cursor. -/
theorem resume_reject (page : Page) (token : String) :
    resume page token .reject =
      (Cursor.ofToken token page.order).map fun c => ⟨page.after (some c), .ready, 0⟩ := by
  cases hread : Cursor.ofToken token page.order with
  | error e => simp only [resume, hread, Except.map]
  | ok c => exact resume_of_token hread .reject

/-- **What becomes of an issued token.** The token of a cursor that fits an ordering is read as
that cursor if it is no longer than a token may be and the numbers of the cursor are finite, and
is refused else. The same goes for the token that a reader hands out after any calls on any
source: resumed with the same ordering, it gives a reader at the same position, or is refused for
its length or for its numbers. If the names of the columns are trimmed, no other reason is left. -/
theorem resume_issued (o : SortOrder) :
    (∀ c : Cursor, (∃ k, c.fit o = .ok k) → Cursor.ofToken (c.token o) o =
      if CursorError.sizeLimit < (c.token o).utf8ByteSize then
        .error (.tooLong (c.token o).utf8ByteSize)
      else if c.isFinite then .ok c else .error .payload) ∧
    ∀ (source : Source σ) (s : σ) (first page : Page) (reader : Reader) (calls : Nat) (c : Cursor),
      first.order = o → page.order = o → Reader.start first = .ok reader →
      (reader.history source s calls).reader.position = some c →
      (reader.history source s calls).reader.token? = some (c.token o) ∧
      resume page (c.token o) .reject =
        (if CursorError.sizeLimit < (c.token o).utf8ByteSize then
          .error (.tooLong (c.token o).utf8ByteSize)
        else if c.isFinite then (c.fit o).map fun _ => ⟨page.after (some c), .ready, 0⟩
        else .error .payload) ∧
      (o.Trimmed → ∃ k, c.fit o = .ok k) := by
  constructor
  · rintro c ⟨k, hfit⟩
    rw [c.ofToken_token_self, hfit]
    rfl
  · intro source s first page reader calls c hfirst hpage hstart hposition
    subst hfirst
    have hkeeps := keeps_history source s hstart calls
    refine ⟨?_, ?_, fun hn => ?_⟩
    · rw [token?, hposition, hkeeps.order]
      rfl
    · rw [resume_reject, hpage, c.ofToken_token_self]
      split
      · rfl
      · split
        · cases c.fit first.order <;> rfl
        · rfl
    · exact hkeeps.fits hn (start_eq_ok_iff.mp hstart).2 c hposition

end Reader

namespace Post

/-- A post with any score. -/
def rated (score : Value) : Row := .ofPairs "posts" [("id", .int 1), ("score", score)]

/-- Behind the post of that score. -/
def behindRated (score : Value) : Cursor := .ofPairs [("score", score), ("id", .int 1)]

/-- The reader that has got the post of that score. -/
def ratedReader (score : Value) : Reader :=
  (Reader.history Source.script ⟨Page.first ranking, .ready, 0⟩ [.ok [rated score]] 1).reader

/-- A post with a score of 3 has a token that is resumed. -/
theorem rated_resumed : ∃ token, (ratedReader (.int 3)).token? = some token ∧
    Cursor.ofToken token ranking = .ok (behindRated (.int 3)) ∧
    Reader.resume (Page.first ranking) token .reject =
      .ok ⟨(Page.first ranking).after (some (behindRated (.int 3))), .ready, 0⟩ := by
  have hfit : (behindRated (.int 3)).fit ranking = .ok 2 := by decide
  have hshort : ¬ CursorError.sizeLimit < ((behindRated (.int 3)).token ranking).utf8ByteSize := by
    decide +kernel
  have hfinite : (behindRated (.int 3)).isFinite = true := by decide
  obtain ⟨hread, hresume⟩ := Reader.resume_issued (σ := List Answer) ranking
  obtain ⟨htoken, hresumed, -⟩ := hresume Source.script [.ok [rated (.int 3)]] (Page.first ranking)
    (Page.first ranking) _ 1 (behindRated (.int 3)) rfl rfl rfl (by decide)
  refine ⟨_, htoken, ?_, ?_⟩
  · rw [hread _ ⟨2, hfit⟩, if_neg hshort, if_pos hfinite]
  · rw [hresumed, if_neg hshort, if_pos hfinite, hfit]
    rfl

/-- A NaN. -/
def undefined : Value := .float ⟨0x7ff8000000000000⟩

/-- Nothing is wrong with the position of a post whose score is a NaN, but its token is refused,
also when a reader has handed it out. -/
theorem undefined_refused : (behindRated undefined).fit ranking = .ok 2 ∧
    Cursor.ofToken ((behindRated undefined).token ranking) ranking = .error .payload ∧
    (ratedReader undefined).token? = some ((behindRated undefined).token ranking) ∧
    Reader.resume (Page.first ranking) ((behindRated undefined).token ranking) .reject =
      .error .payload := by
  have hread : Cursor.ofToken ((behindRated undefined).token ranking) ranking = .error .payload := by
    rw [Cursor.ofToken_token_self, if_neg (by decide +kernel)]
    rfl
  refine ⟨by decide, hread, ?_, ?_⟩
  · have hposition : (ratedReader undefined).position = some (behindRated undefined) := by decide
    rw [Reader.token?, hposition]
    rfl
  · rw [Reader.resume_reject]
    show (Cursor.ofToken _ ranking).map _ = _
    rw [hread]
    rfl

end Post

end Keyset
