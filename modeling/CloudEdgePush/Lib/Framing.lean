import Mathlib.Data.List.Basic

/-!
# Framing

A stream protocol has an encoder `enc`, which makes a frame of a message, and a reader
`recv`, which takes one frame off the front of a stream.  `ReadsBack` speaks of one frame
and of everything that may follow it.  It is all that is needed for streams: any number of
frames is read back in order, and between two frames the stream is aligned
(`recvMany_append`).

The stream may carry more than its bytes; `feed` is the stream with given bytes.
-/

namespace CloudEdgePush.Lib.Framing

variable {α β γ σ : Type*}

/-- One frame is read back as `val`, and the reader stops where the frame ends. -/
def ReadsBack (enc : α → List β) (val : α → γ) (feed : List β → σ) (recv : σ → γ × σ) : Prop :=
  ∀ a rest, recv (feed (enc a ++ rest)) = (val a, feed rest)

def recvMany (recv : σ → γ × σ) : Nat → σ → List γ × σ
  | 0, s => ([], s)
  | n + 1, s =>
      let first := recv s
      let others := recvMany recv n first.2
      (first.1 :: others.1, others.2)

variable {enc : α → List β} {val : α → γ} {feed : List β → σ} {recv : σ → γ × σ}

theorem recvMany_flatMap (h : ReadsBack enc val feed recv) (as : List α) (rest : List β) :
    recvMany recv as.length (feed (as.flatMap enc ++ rest)) = (as.map val, feed rest) := by
  induction as with
  | nil => rfl
  | cons a as ih =>
      have hfirst : recv (feed ((a :: as).flatMap enc ++ rest)) =
          (val a, feed (as.flatMap enc ++ rest)) := by
        rw [List.flatMap_cons, List.append_assoc]
        exact h a _
      simp only [List.length_cons, recvMany, hfirst, ih, List.map_cons]

/-- Between two frames the stream is aligned: what is left are the frames not yet read. -/
theorem recvMany_append (h : ReadsBack enc val feed recv) (as bs : List α) :
    recvMany recv as.length (feed ((as ++ bs).flatMap enc)) =
      (as.map val, feed (bs.flatMap enc)) := by
  rw [List.flatMap_append]
  exact recvMany_flatMap h as _

end CloudEdgePush.Lib.Framing
