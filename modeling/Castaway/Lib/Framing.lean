import Mathlib.Data.List.Basic

/-!
# Messages in a stream

A receiver cuts messages off the front of what it has buffered, and waits while
the buffer holds only part of one.  A `Framing` is such a receiver: one `next`
step, which takes a message, waits or fails, and which more bytes behind the
message do not change.  Then the messages do not depend on how the stream was
cut into chunks: feeding chunks is draining their concatenation
(`feedAll_eq_drain`), and what has been put out after some of them is what
draining those alone puts out.

A `Framing` also carries the state that the messages change, and `out` is what
one message puts out.
-/

namespace Castaway

open List

universe u v w x

/-- What a receiver does with its buffer: wait for more, take one message off
the front, or give up. -/
inductive Next (α : Type u) (β : Type v) (σ : Type w) (ε : Type x) where
  | wait
  | took (state : σ) (out : List β) (rest : List α)
  | failed (error : ε)

/-- A receiver that more input behind a message does not disturb. -/
structure Framing (α : Type u) (β : Type v) (σ : Type w) (ε : Type x) where
  next : σ → List α → Next α β σ ε
  shrinks : ∀ {s buf s' out rest}, next s buf = .took s' out rest → rest.length < buf.length
  took_append : ∀ {s buf s' out rest}, next s buf = .took s' out rest → ∀ more,
    next s (buf ++ more) = .took s' out (rest ++ more)
  failed_append : ∀ {s buf e}, next s buf = .failed e → ∀ more, next s (buf ++ more) = .failed e

/-- The state of a receiver between two chunks. -/
inductive Stream (α : Type u) (σ : Type w) (ε : Type x) where
  | running (state : σ) (buf : List α)
  | broken (error : ε)

namespace Framing

variable {α : Type u} {β : Type v} {σ : Type w} {ε : Type x} (F : Framing α β σ ε)

/-- Take messages for as long as there are whole ones. -/
def drain (s : σ) (buf : List α) : List β × Stream α σ ε :=
  match _hnext : F.next s buf with
  | .wait => ([], .running s buf)
  | .failed e => ([], .broken e)
  | .took s' out rest =>
    let tail := drain s' rest
    (out ++ tail.1, tail.2)
termination_by buf.length
decreasing_by exact F.shrinks _hnext

def feed (stream : Stream α σ ε) (chunk : List α) : List β × Stream α σ ε :=
  match stream with
  | .running s buf => F.drain s (buf ++ chunk)
  | .broken e => ([], .broken e)

def feedAll : Stream α σ ε → List (List α) → List β × Stream α σ ε
  | stream, [] => ([], stream)
  | stream, chunk :: rest =>
    let fed := F.feed stream chunk
    let tail := feedAll fed.2 rest
    (fed.1 ++ tail.1, tail.2)

variable {F} {s s' : σ} {buf rest : List α} {out : List β} {e : ε}

theorem drain_of_wait (h : F.next s buf = .wait) : F.drain s buf = ([], .running s buf) := by
  rw [drain]
  split
  next => rfl
  next heq => cases h.symm.trans heq
  next heq => cases h.symm.trans heq

theorem drain_of_failed (h : F.next s buf = .failed e) : F.drain s buf = ([], .broken e) := by
  rw [drain]
  split
  next heq => cases h.symm.trans heq
  next heq => cases h.symm.trans heq; rfl
  next heq => cases h.symm.trans heq

theorem drain_of_took (h : F.next s buf = .took s' out rest) :
    F.drain s buf = (out ++ (F.drain s' rest).1, (F.drain s' rest).2) := by
  rw [drain]
  split
  next heq => cases h.symm.trans heq
  next heq => cases h.symm.trans heq
  next heq => cases h.symm.trans heq; rfl

variable (F)

/-- **Draining does not depend on where the stream is cut.** -/
theorem drain_append (s : σ) (buf more : List α) :
    F.drain s (buf ++ more) = ((F.drain s buf).1 ++ (F.feed (F.drain s buf).2 more).1,
      (F.feed (F.drain s buf).2 more).2) := by
  induction hlength : buf.length using Nat.strongRecOn generalizing s buf with
  | _ n ih =>
    cases hnext : F.next s buf with
    | wait =>
      rw [drain_of_wait hnext]
      rfl
    | failed e =>
      rw [drain_of_failed hnext, drain_of_failed (F.failed_append hnext more)]
      rfl
    | took s' out rest =>
      have hshrinks : rest.length < n := hlength ▸ F.shrinks hnext
      rw [drain_of_took hnext, drain_of_took (F.took_append hnext more),
        ih rest.length hshrinks s' rest rfl, append_assoc]

/-- A drained buffer holds no whole message. -/
theorem wait_of_drain {s s' : σ} {buf rest : List α} {out : List β}
    (h : F.drain s buf = (out, .running s' rest)) : F.next s' rest = .wait := by
  induction hlength : buf.length using Nat.strongRecOn generalizing s buf out with
  | _ n ih =>
    cases hnext : F.next s buf with
    | wait =>
      rw [drain_of_wait hnext] at h
      cases h
      exact hnext
    | failed e =>
      rw [drain_of_failed hnext] at h
      cases h
    | took s'' first middle =>
      rw [drain_of_took hnext] at h
      obtain ⟨-, hrest⟩ := Prod.mk.inj h
      exact ih middle.length (hlength ▸ F.shrinks hnext) (Prod.ext rfl hrest) rfl

/-- **Feeding chunks is draining their concatenation.** -/
theorem feedAll_eq_drain {s : σ} {buf : List α} (hwait : F.next s buf = .wait)
    (chunks : List (List α)) :
    F.feedAll (.running s buf) chunks = F.drain s (buf ++ chunks.flatten) := by
  have hbroken (e : ε) (chunks : List (List α)) :
      F.feedAll (.broken e) chunks = ([], .broken e) := by
    induction chunks with
    | nil => rfl
    | cons chunk rest ih => rw [feedAll, feed, ih]; rfl
  induction chunks generalizing s buf with
  | nil => rw [feedAll, flatten_nil, append_nil, drain_of_wait hwait]
  | cons chunk rest ih =>
    rw [feedAll, feed, flatten_cons, ← append_assoc,
      F.drain_append s (buf ++ chunk) rest.flatten]
    cases hdrain : F.drain s (buf ++ chunk) with
    | mk out stream =>
      cases stream with
      | running s' buf' => rw [ih (F.wait_of_drain hdrain)]; rfl
      | broken e => rw [hbroken]; rfl

/-! ## A stream of messages

`Sends s xs s' outs` lists messages that lead from the state `s` to `s'`: each
is taken whole, whatever follows it. -/

/-- The byte strings `messages` are taken one after the other. -/
inductive Sends : σ → List (List α) → List (List β) → σ → Prop
  | nil (s : σ) : Sends s [] [] s
  | cons {s s' s'' : σ} {message : List α} {out : List β} {messages : List (List α)}
      {outs : List (List β)} (hnext : F.next s message = .took s' out [])
      (hrest : Sends s' messages outs s'') : Sends s (message :: messages) (out :: outs) s''

variable {F} {messages chunks : List (List α)} {outs : List (List β)}

section

variable (h : F.Sends s messages outs s')
include h

/-- Whole messages are all taken, and then what follows them. -/
theorem Sends.drain (more : List α) : F.drain s (messages.flatten ++ more) =
      (outs.flatten ++ (F.drain s' more).1, (F.drain s' more).2) := by
  induction h with
  | nil s => rfl
  | @cons s s' s'' message out messages outs hnext hrest ih =>
    have htook := F.took_append hnext (messages.flatten ++ more)
    rw [flatten_cons, append_assoc, drain_of_took htook, nil_append, ih,
      flatten_cons, append_assoc]

theorem Sends.take (n : ℕ) :
    ∃ s'', F.Sends s (messages.take n) (outs.take n) s'' := by
  induction h generalizing n with
  | nil s => exact ⟨s, by simpa using Sends.nil s⟩
  | @cons s _ _ _ _ _ _ hnext hrest ih =>
    cases n with
    | zero => exact ⟨s, .nil s⟩
    | succ n =>
      obtain ⟨s'', hs''⟩ := ih n
      exact ⟨s'', .cons hnext hs''⟩

/-- **Whatever the chunks**, the messages they concatenate to are all taken and
nothing is left over. -/
theorem Sends.feedAll (hstart : F.next s [] = .wait) (hend : F.next s' [] = .wait)
    (hchunks : chunks.flatten = messages.flatten) :
    F.feedAll (.running s []) chunks = (outs.flatten, .running s' []) := by
  have hdrain := h.drain []
  rw [append_nil, drain_of_wait hend, append_nil] at hdrain
  rw [feedAll_eq_drain F hstart, nil_append, hchunks, hdrain]

/-- **No message comes late**: what the first chunks hold in full has been put
out when they have been fed. -/
theorem Sends.feedAll_take (hstart : F.next s [] = .wait)
    (hchunks : chunks.flatten = messages.flatten) {n k : ℕ}
    (hheld : (messages.take n).flatten.length ≤ (chunks.take k).flatten.length) :
    (outs.take n).flatten <+: (F.feedAll (.running s []) (chunks.take k)).1 := by
  have hwhole : (messages.take n).flatten <+: messages.flatten := by
    conv_rhs => rw [← take_append_drop n messages, flatten_append]
    exact prefix_append _ _
  have hfed : (chunks.take k).flatten <+: messages.flatten := by
    rw [← hchunks]
    conv_rhs => rw [← take_append_drop k chunks, flatten_append]
    exact prefix_append _ _
  obtain ⟨more, hmore⟩ := prefix_of_prefix_length_le hwhole hfed hheld
  obtain ⟨s'', htake⟩ := h.take n
  rw [feedAll_eq_drain F hstart, nil_append, ← hmore, htake.drain]
  exact prefix_append _ _

end

end Framing

end Castaway
