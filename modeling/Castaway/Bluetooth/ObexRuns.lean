import Castaway.Bluetooth.Obex
import Castaway.Lib.Runs

/-!
# Runs of the cover-art session

Objects are fetched over a connected session, and packets arrive as they please.
`Exchange` sets beside the session what the two parties have said about the
object under way: its chunks, the requests sent and the packets received for it,
and whether the first of these granted single response mode.  All of it is taken
from the packets, and none of it from the session.

## Strategy

A packet that decodes keeps the two in step (`Synced`), whatever its code.  One
that does not decode ends `feed` before anything is put back.
-/

namespace Castaway.Bluetooth

/-- What a caller of the session does. -/
inductive CoverArtCall where
  | fetch (fetch : Fetch)
  | receive (packet : Bytes)
  deriving DecidableEq

def delivered (xml : Xml) (fetch : Fetch) (data : Bytes) : Except FeedError (Option Fetched) :=
  if data.isEmpty then .error (.audio (.badMediaPacket "cover art response was empty"))
  else (object xml (some fetch) data).map some

/-- A session, and what was said about the object under way. -/
structure Exchange where
  session : CoverArtSession
  /-- The object under way, until its final outcome. -/
  current : Option Fetch := none
  chunks : List Bytes := []
  /-- How many requests were sent for it. -/
  asked : ℕ := 0
  /-- How many packets were received for it. -/
  answered : ℕ := 0
  /-- What the first of these said to the offer. -/
  granted : Option Bool := none

namespace Exchange

def send (e : Exchange) (next : CoverArtSession × Option Bytes) : Exchange :=
  { e with session := next.1, asked := e.asked + next.2.toList.length }

/-- Note a packet for the object under way.  Whatever does not ask for more is
its final outcome, and so is a packet that does not decode. -/
def hear (e : Exchange) (packet : Bytes) : Exchange :=
  if e.current.isNone then e
  else
    match ObexPacket.decode packet 0 with
    | .error _ => { e with current := none, answered := e.answered + 1 }
    | .ok p =>
      { e with
        current := if p.response = 0x10 then e.current else none
        chunks := e.chunks ++ p.chunks
        answered := e.answered + 1
        granted := e.granted.or (some p.grants) }

/-- Make a call, and send what comes of it.  After a packet, only one that
neither completed an object nor failed has the next request sent. -/
def call (xml : Xml) (e : Exchange) : CoverArtCall → Exchange
  | .fetch fetch =>
    if (e.session.start fetch).2 then
      ({ session := (e.session.start fetch).1, current := some fetch } : Exchange).send
        (e.session.start fetch).1.nextRequest
    else { e with session := (e.session.start fetch).1 }
  | .receive packet =>
    let fed := e.session.feed xml packet
    match fed.2 with
    | .ok none => (e.hear packet).send fed.1.nextRequest
    | .ok (some _) | .error _ => { e.hear packet with session := fed.1.nextRequest.1 }

/-! ## What is wanted of a session -/

/-- The session is never left hanging, and its requests are those that the
answer to the offer allows. -/
structure Settled (e : Exchange) : Prop where
  back : e.current = none → e.session.state = .ready ∨ e.session.state = .failed
  awaited : e.session.state = .fetching →
    e.session.nextRequest.2.isSome ∨ e.answered < e.asked ∨ e.granted = some true
  quiet : e.session.state = .fetching → e.granted ≠ some false →
    e.session.nextRequest.2 = none ∧ e.asked = 1
  once : e.session.state = .fetching → e.granted = some false → e.asked = e.answered + 1

/-- A packet that completes the object under way hands back what its chunks come
to, and no other packet hands anything back. -/
def Whole (xml : Xml) (e : Exchange) : CoverArtCall → Prop
  | .fetch _ => True
  | .receive packet =>
    match e.current, ObexPacket.decode packet 0 with
    | some fetch, .ok p =>
      if p.response = 0x20 then
        (e.session.feed xml packet).2 = delivered xml fetch (e.chunks ++ p.chunks).flatten
      else ∀ fetched, (e.session.feed xml packet).2 ≠ .ok (some fetched)
    | _, _ => ∀ fetched, (e.session.feed xml packet).2 ≠ .ok (some fetched)

/-- While an object is under way, the packets that arrive decode. -/
def Decodes (e : Exchange) : CoverArtCall → Prop
  | .fetch _ => True
  | .receive packet => e.session.state = .fetching → (ObexPacket.decode packet 0).toOption.isSome

instance decidableDecodes (e : Exchange) : ∀ c, Decidable (Decodes e c)
  | .fetch _ => isTrue trivial
  | .receive packet =>
    inferInstanceAs (Decidable (e.session.state = .fetching →
      (ObexPacket.decode packet 0).toOption.isSome = true))

/-! ## The session keeps step with the exchange -/

/-- The session stands for the object under way, and has answered as the packets
did. -/
inductive Synced (e : Exchange) : Prop
  | idle (hcurrent : e.current = none) (hstate : e.session.state = .ready)
  | underWay (fetch : Fetch) (hcurrent : e.current = some fetch)
      (hstate : e.session.state = .fetching) (hfetch : e.session.fetch = some fetch)
      (hbody : e.session.body = e.chunks.flatten)
      (hsrm : (e.session.srm = some .offered ∧ e.granted = none ∧ e.asked = 1 ∧ e.answered = 0) ∨
        (e.session.srm = some .active ∧ e.granted = some true ∧ e.asked = 1) ∨
        (e.session.srm = some .declined ∧ e.granted = some false ∧ e.asked = e.answered + 1))

variable {xml : Xml} {e : Exchange} {fetch : Fetch} {packet : Bytes} {p : ObexPacket}

theorem Synced.settled (h : Synced e) : Settled e := by
  rcases h with ⟨hcurrent, hstate⟩ | ⟨fetch, hcurrent, hstate, hfetch, hbody, hsrm⟩
  · have hidle : ¬ e.session.state = .fetching := by simp [hstate]
    exact ⟨fun _ => .inl hstate, fun h => absurd h hidle, fun h => absurd h hidle,
      fun h => absurd h hidle⟩
  · have hunderWay : e.current ≠ none := by simp [hcurrent]
    rcases hsrm with ⟨hsrm, hgranted, hasked, hanswered⟩ | ⟨hsrm, hgranted, hasked⟩ |
      ⟨hsrm, hgranted, hasked⟩
    · have hquiet : e.session.nextRequest.2 = none := by
        simp [CoverArtSession.nextRequest, hstate, hsrm]
      refine ⟨fun h => absurd h hunderWay, fun _ => .inr (.inl ?_), fun _ _ => ⟨hquiet, hasked⟩,
        fun _ h => by simp [hgranted] at h⟩
      rw [hasked, hanswered]
      exact Nat.one_pos
    · have hquiet : e.session.nextRequest.2 = none := by
        simp [CoverArtSession.nextRequest, hstate, hsrm]
      exact ⟨fun h => absurd h hunderWay, fun _ => .inr (.inr hgranted),
        fun _ _ => ⟨hquiet, hasked⟩, fun _ h => by simp [hgranted] at h⟩
    · refine ⟨fun h => absurd h hunderWay, fun _ => .inr (.inl ?_),
        fun _ h => absurd hgranted h, fun _ _ => hasked⟩
      rw [hasked]
      exact Nat.lt_succ_self _

/-- A fetch is taken on by a session that is free, and by no other. -/
theorem synced_fetch (h : Synced e) : Synced (e.call xml (.fetch fetch)) := by
  by_cases hstate : e.session.state = .ready
  · refine .underWay fetch ?_ ?_ ?_ ?_ (.inl ?_)
    all_goals simp [call, send, CoverArtSession.start, CoverArtSession.isReady,
      CoverArtSession.nextRequest, hstate]
  · have hsame : e.call xml (.fetch fetch) = e := by
      simp [call, CoverArtSession.start, CoverArtSession.isReady, hstate]
    rwa [hsame]

theorem feed_fetching (hstate : e.session.state = .fetching)
    (hdecode : ObexPacket.decode packet 0 = .ok p) :
    e.session.feed xml packet = e.session.feedFetching xml p := by
  simp [CoverArtSession.feed, hstate, hdecode]

theorem feed_broken (hstate : e.session.state = .fetching) {error : AudioError}
    (hdecode : ObexPacket.decode packet 0 = .error error) :
    e.session.feed xml packet = (e.session, .error (.audio error)) := by
  simp [CoverArtSession.feed, hstate, hdecode]

/-- A packet that ends the object under way, well or badly, leaves the session
free. -/
theorem feedFetching_final (hfinal : p.response ≠ 0x10) :
    (e.session.feedFetching xml p).1.state = .ready ∧
      (e.session.feedFetching xml p).2 ≠ .ok none := by
  unfold CoverArtSession.feedFetching
  rw [if_neg hfinal]
  split
  · refine ⟨rfl, ?_⟩
    dsimp only
    split
    · simp
    · cases object xml e.session.fetch _ <;> simp [Except.map]
  · exact ⟨rfl, by simp⟩

/-- A packet that asks for more settles the offer, and adds its chunks. -/
theorem synced_more (hcurrent : e.current = some fetch) (hstate : e.session.state = .fetching)
    (h : Synced e) (hdecode : ObexPacket.decode packet 0 = .ok p) (hmore : p.response = 0x10) :
    Synced (e.call xml (.receive packet)) := by
  rcases h with ⟨hnone, -⟩ | ⟨fetch', hcurrent', -, hfetch, hbody, hsrm⟩
  · simp [hcurrent] at hnone
  · have hfed : e.session.feed xml packet = _ := feed_fetching hstate hdecode
    rcases hsrm with ⟨hsrm, hgranted, hasked, hanswered⟩ | ⟨hsrm, hgranted, hasked⟩ |
      ⟨hsrm, hgranted, hasked⟩
    · cases hgrants : p.grants
      all_goals
        refine .underWay fetch' ?_ ?_ ?_ ?_ ?_
        all_goals simp [call, hfed, CoverArtSession.feedFetching, hmore, hear, hcurrent', hdecode,
          send, CoverArtSession.nextRequest, hstate, hsrm, hgrants, hfetch, hbody, hgranted, hasked,
          hanswered]
    · refine .underWay fetch' ?_ ?_ ?_ ?_ (.inr (.inl ?_))
      all_goals simp [call, hfed, CoverArtSession.feedFetching, hmore, hear, hcurrent', hdecode,
        send, CoverArtSession.nextRequest, hstate, hsrm, hfetch, hbody, hgranted, hasked]
    · refine .underWay fetch' ?_ ?_ ?_ ?_ (.inr (.inr ?_))
      all_goals simp [call, hfed, CoverArtSession.feedFetching, hmore, hear, hcurrent', hdecode,
        send, CoverArtSession.nextRequest, hstate, hsrm, hfetch, hbody, hgranted, hasked]

@[simp] theorem nextRequest_state (session : CoverArtSession) :
    session.nextRequest.1.state = session.state := by
  unfold CoverArtSession.nextRequest
  split
  · rfl
  · split <;> rfl
  all_goals rfl

theorem nextRequest_ready {session : CoverArtSession} (h : session.state = .ready) :
    session.nextRequest = (session, none) := by
  simp [CoverArtSession.nextRequest, h]

theorem call_receive_of_ended (hended : (e.session.feed xml packet).2 ≠ .ok none) :
    e.call xml (.receive packet) =
      { e.hear packet with session := (e.session.feed xml packet).1.nextRequest.1 } := by
  rw [call]
  split
  next hresult => exact absurd hresult hended
  all_goals rfl

theorem synced_final (hcurrent : e.current = some fetch) (hstate : e.session.state = .fetching)
    (hdecode : ObexPacket.decode packet 0 = .ok p) (hfinal : p.response ≠ 0x10) :
    Synced (e.call xml (.receive packet)) := by
  have hfed : e.session.feed xml packet = _ := feed_fetching hstate hdecode
  obtain ⟨hready, hended⟩ : (e.session.feedFetching xml p).1.state = .ready ∧
      (e.session.feedFetching xml p).2 ≠ .ok none := feedFetching_final hfinal
  rw [← hfed] at hready hended
  rw [call_receive_of_ended hended]
  refine .idle ?_ ?_
  · simp [hear, hcurrent, hdecode, hfinal]
  · simp [hready]

/-- A packet that nobody asked for changes nothing. -/
theorem call_receive_idle (hcurrent : e.current = none) (hstate : e.session.state = .ready) :
    e.call xml (.receive packet) = e := by
  have hfed : (e.session.feed xml packet).1 = e.session := by
    unfold CoverArtSession.feed
    rw [hstate]
    split <;> rfl
  have hheard : e.hear packet = e := by simp [hear, hcurrent]
  rw [call]
  simp only [hfed, hheard, nextRequest_ready hstate]
  split <;> simp [send]

theorem synced_receive (h : Synced e) (hdecodes : Decodes e (.receive packet)) :
    Synced (e.call xml (.receive packet)) := by
  rcases h with ⟨hcurrent, hstate⟩ | ⟨fetch, hcurrent, hstate, hfetch, hbody, hsrm⟩
  · rw [call_receive_idle hcurrent hstate]
    exact .idle hcurrent hstate
  · cases hdecode : ObexPacket.decode packet 0 with
    | error error => simp [Decodes, hstate, hdecode, Except.toOption] at hdecodes
    | ok p =>
      by_cases hmore : p.response = 0x10
      · exact synced_more hcurrent hstate (.underWay fetch hcurrent hstate hfetch hbody hsrm)
          hdecode hmore
      · exact synced_final hcurrent hstate hdecode hmore

/-- What a packet hands back is the object whose chunks it ends. -/
theorem Synced.whole (h : Synced e) (c : CoverArtCall) : Whole xml e c := by
  cases c with
  | fetch wanted => trivial
  | receive packet =>
    rcases h with ⟨hcurrent, hstate⟩ | ⟨fetch, hcurrent, hstate, hfetch, hbody, -⟩
    · simp only [Whole, hcurrent]
      intro fetched
      unfold CoverArtSession.feed
      rw [hstate]
      split <;> simp
    · cases hdecode : ObexPacket.decode packet 0 with
      | error error =>
        simp only [Whole, hcurrent, hdecode, feed_broken hstate hdecode]
        simp
      | ok p =>
        simp only [Whole, hcurrent, hdecode, feed_fetching hstate hdecode]
        split
        next hsuccess =>
          simp [CoverArtSession.feedFetching, hsuccess, delivered, hfetch, hbody]
        next hother =>
          intro fetched
          rw [CoverArtSession.feedFetching, if_neg hother]
          split <;> simp

/-- A packet that does not decode leaves the session fetching an object that has
had its final outcome. -/
theorem not_settled_of_broken (h : Synced e) (hbroken : ¬ Decodes e (.receive packet)) :
    ¬ Settled (e.call xml (.receive packet)) := by
  have hstate : e.session.state = .fetching := by
    by_contra hother
    exact hbroken fun hfetching => absurd hfetching hother
  rcases h with ⟨-, hready⟩ | ⟨fetch, hcurrent, -, -, -, -⟩
  · simp [hstate] at hready
  · cases hdecode : ObexPacket.decode packet 0 with
    | ok p => exact absurd (fun _ => by simp [hdecode, Except.toOption]) hbroken
    | error error =>
      have hfed : e.session.feed xml packet = _ := feed_broken hstate hdecode
      have hended : (e.session.feed xml packet).2 ≠ .ok none := by simp [hfed]
      intro hsettled
      have hback := hsettled.back (by
        rw [call_receive_of_ended hended]
        simp [hear, hcurrent, hdecode])
      rw [call_receive_of_ended hended, hfed] at hback
      simp [hstate] at hback

theorem synced_call (h : Synced e) {c : CoverArtCall} (hdecodes : Decodes e c) :
    Synced (e.call xml c) := by
  cases c with
  | fetch wanted => exact synced_fetch h
  | receive packet => exact synced_receive h hdecodes

/-- The run of any calls on a connected session hands every object back whole
and brings the session back from each, exactly when the packets for the objects
decode. -/
theorem fetches_come_back_iff (xml : Xml) (session : CoverArtSession)
    (hready : session.state = .ready) (calls : List CoverArtCall) :
    (Along (call xml) (Whole xml) calls { session } ∧
        ∀ k ≤ calls.length, Settled ((calls.take k).foldl (call xml) { session })) ↔
      Along (call xml) Decodes calls { session } := by
  have hstart : Synced { session } := .idle rfl hready
  rw [forall_take_iff, and_left_comm, ← along_and, and_iff_right hstart.settled]
  refine along_congr_of_invariant Synced hstart fun e c hsynced => ⟨?_, synced_call hsynced⟩
  constructor
  · rintro ⟨-, hsettled⟩
    cases c with
    | fetch wanted => trivial
    | receive packet =>
      by_contra hbroken
      exact not_settled_of_broken hsynced hbroken hsettled
  · intro hdecodes
    exact ⟨hsynced.whole c, (synced_call hsynced hdecodes).settled⟩

def connected : CoverArtSession := { state := .ready, connectionId := some 1, maxPacket := 0x1000 }

/-- A thumbnail in two chunks, the second of which comes unasked. -/
def streamed : List CoverArtCall :=
  [.fetch (.thumbnail "0000001".toList),
    .receive [0x90, 0, 10, 0x97, 0x01, 0x48, 0, 5, 0x89, 0x50],
    .receive [0xA0, 0, 8, 0x49, 0, 5, 0x4E, 0x47]]

theorem fetches_come_back_streamed :
    Along (call fun _ => .error "") (Whole fun _ => .error "") streamed { session := connected } ∧
      ∀ k ≤ streamed.length,
        Settled ((streamed.take k).foldl (call fun _ => .error "") { session := connected }) :=
  (fetches_come_back_iff (fun _ => .error "") connected rfl streamed).mpr (by decide)

/-- A response of one byte to the first request. -/
def cutShort : List CoverArtCall := [.fetch (.thumbnail "0000001".toList), .receive [0x90]]

/-- The offer has had its answer, and the session waits for it with nothing to
send. -/
theorem fetch_hangs_on_short_response :
    ¬ ∀ k ≤ cutShort.length,
      Settled ((cutShort.take k).foldl (call fun _ => .error "") { session := connected }) := by
  intro h
  have hback := (h 2 (by decide)).back (by decide)
  revert hback
  decide

end Exchange

end Castaway.Bluetooth
