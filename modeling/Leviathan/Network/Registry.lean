import Leviathan.Lib.Accounts
import Leviathan.Lib.Run
import Leviathan.Network.Payload

/-!
# The clients of a server

The server of a centralized run (`shared/network/src/tcp.rs`). Each connection is a task of its own: the client answers
a challenge, is put into a map of clients under its identity, and is served until its stream ends; then it is taken out
of the map, and whoever waits for notifications is told. An input of `TcpServer` is a step of one of these tasks, with
what the peer sends and whether a write succeeds. How messages and signatures are read is a parameter (`TcpCodec`). Left
out: that whoever waits for messages or notifications may go away, which ends the server.

A connection may also end with an error: when a write fails, when a message cannot be read, and when the message is an
answer to a challenge. Then it is not taken out of the map, and nobody is told. And a connection is taken out by its
identity, whether or not the entry is its own.
-/

namespace Leviathan
open List

inductive ClientToServerMessage (α : Type) where
  | challengeResponse (response : Bytes)
  | else_ (message : α)
deriving DecidableEq, Repr

/-- How messages are read: `from_bytes` of a message, also as the answer to a challenge, which Rust takes for a message to a
client, and `SignedMessage::verify_and_decode`, which also returns the signer. -/
structure TcpCodec (α β : Type) where
  fromBytes : Bytes → Option (ClientToServerMessage α)
  responseFromBytes : Bytes → Option (ClientToServerMessage β)
  verifyAndDecode : Bytes → Option (Bytes32 × Bytes32)

/-- Whether a frame is a message for the server. -/
def TcpCodec.isMessage {α β : Type} (K : TcpCodec α β) (bytes : Bytes) : Bool :=
  match K.fromBytes bytes with
  | some (.else_ _) => true
  | _ => false

/-- What is read from a stream: a frame, an error, or its end. -/
inductive Incoming where
  | frame (bytes : Bytes)
  | error
  | closed
deriving DecidableEq, Repr

inductive ConnectionPhase where
  | challenged (challenge : Bytes32)
  | welcomed (identity : Bytes32)        -- waits for the lock, to be put into the map
  | serving (identity : Bytes32)
  | closing (identity : Bytes32)         -- waits for the lock, to be taken out of the map
  | removed (identity : Bytes32)
  | ended (identity : Option Bytes32)    -- with its identity if it has been put into the map
deriving DecidableEq, Repr

/-- A connection, and the messages that are to be sent to its client (Rust `client_rx`). -/
structure Connection (β : Type) where
  phase : ConnectionPhase
  clientRx : List β
deriving DecidableEq, Repr

/-- Rust `TcpServer`: the connections in the order in which they have been accepted, and the map of clients. The sender of
an entry is given by the number of its connection. -/
structure TcpServer (β : Type) where
  connections : List (Connection β)
  clients : Accounts Bytes32 Nat

/-- A connection is accepted and challenged, something is read from one, its task gets the lock, notifies or writes a
message; or a message is to be sent to a client. -/
inductive TcpInput (β : Type) where
  | accept (challenge : Bytes32) (sent : Bool)
  | read (connection : Nat) (incoming : Incoming)
  | lock (connection : Nat)
  | notify (connection : Nat)
  | write (connection : Nat) (sent : Bool)
  | sendTo (client : Bytes32) (message : β)
deriving DecidableEq, Repr

/-- What comes of it (Rust `ClientNotification`). -/
inductive TcpOutput (α : Type) where
  | quiet
  | message (identity : Bytes32) (message : α)
  | disconnected (identity : Bytes32)
deriving DecidableEq, Repr

/-- The task of a connection is not at such a step. -/
inductive TcpBlocked where
  | notThere
deriving DecidableEq, Repr

namespace TcpServer
variable {α β : Type}

def phase (s : TcpServer β) (c : Nat) : Option ConnectionPhase := s.connections[c]?.map Connection.phase

/-- A connection moves on. -/
def setPhase (s : TcpServer β) (c : Nat) (phase : ConnectionPhase) : TcpServer β :=
  { s with connections := s.connections.modify c fun connection => { connection with phase } }

/-- The answer to the challenge. -/
def respond (K : TcpCodec α β) (challenge : Bytes32) : Incoming → ConnectionPhase
  | .frame bytes =>
    match K.responseFromBytes bytes with
    | some (.challengeResponse response) =>
      match K.verifyAndDecode response with
      | some (identity, decodedChallenge) => if decodedChallenge = challenge then .welcomed identity else .ended none
      | none => .ended none
    | _ => .ended none
  | _ => .ended none

/-- What a connection that is served reads. -/
def receive (K : TcpCodec α β) (identity : Bytes32) : Incoming → ConnectionPhase × TcpOutput α
  | .frame bytes =>
    match K.fromBytes bytes with
    | some (.else_ message) => (.serving identity, .message identity message)
    | _ => (.ended (some identity), .quiet)
  | _ => (.closing identity, .quiet)

/-- One step (of `handle_connection`, or of the task for messages to clients). -/
def next (K : TcpCodec α β) (s : TcpServer β) : TcpInput β → Except TcpBlocked (TcpServer β × TcpOutput α)
  | .accept challenge sent =>
    let phase := if sent then .challenged challenge else .ended none
    .ok ({ s with connections := s.connections ++ [⟨phase, []⟩] }, .quiet)
  | .read c incoming =>
    match s.phase c with
    | some (.challenged challenge) => .ok (s.setPhase c (respond K challenge incoming), .quiet)
    | some (.serving identity) =>
      let (phase, output) := receive K identity incoming
      .ok (s.setPhase c phase, output)
    | _ => .error .notThere
  | .lock c =>
    match s.phase c with
    | some (.welcomed identity) =>
      .ok ({ s.setPhase c (.serving identity) with clients := s.clients.insert identity c }, .quiet)
    | some (.closing identity) =>
      .ok ({ s.setPhase c (.removed identity) with clients := s.clients.erase identity }, .quiet)
    | _ => .error .notThere
  | .notify c =>
    match s.phase c with
    | some (.removed identity) => .ok (s.setPhase c (.ended (some identity)), .disconnected identity)
    | _ => .error .notThere
  | .write c sent =>
    match s.connections[c]? with
    | some ⟨.serving identity, _ :: clientRx⟩ =>
      let phase := if sent then .serving identity else .ended (some identity)
      .ok ({ s with connections := s.connections.set c ⟨phase, clientRx⟩ }, .quiet)
    | _ => .error .notThere
  | .sendTo client message =>
    match s.clients.lookup client with
    | some c =>
      .ok ({ s with
        connections := s.connections.modify c fun connection =>
          { connection with clientRx := connection.clientRx ++ [message] } }, .quiet)
    | none => .ok (s, .quiet)

/-- The server, which starts without connections. -/
def machine (K : TcpCodec α β) : Machine (TcpServer β) (TcpInput β) (TcpOutput α) TcpBlocked where
  init s := s = ⟨[], ∅⟩
  step := next K

abbrev Record (α β : Type) := List (Event (TcpServer β) (TcpInput β) (TcpOutput α))

/-- An authenticated connection that has not ended. -/
def Live (s : TcpServer β) (c : Nat) (identity : Bytes32) : Prop :=
  s.phase c = some (.serving identity) ∨ s.phase c = some (.closing identity)

/-- The notification of a step, with the connection that has ended. -/
def notification (ev : Event (TcpServer β) (TcpInput β) (TcpOutput α)) : Option (Nat × Bytes32) :=
  match ev.input, ev.output with
  | .notify c, .disconnected identity => some (c, identity)
  | _, _ => none

/-- The notifications that a connection has caused. -/
def notifications (tr : Record α β) (c : Nat) : List (Nat × Bytes32) :=
  (tr.filterMap notification).filter (·.1 = c)

/-- An identity is in the map if it has an authenticated connection that has not ended, and each that has ended has caused one
notification. -/
structure Exact (tr : Record α β) (s : TcpServer β) : Prop where
  registered : ∀ identity, (s.clients.lookup identity).isSome ↔ ∃ c, s.Live c identity
  notified : ∀ c identity, s.phase c = some (.ended (some identity)) → notifications tr c = [(c, identity)]

/-- A connection that is taken out of the map takes its own entry out. -/
def OwnEntry (ev : Event (TcpServer β) (TcpInput β) (TcpOutput α)) : Prop :=
  ∀ c identity, ev.input = .lock c → ev.before.phase c = some (.closing identity) →
    ∀ c', ev.before.clients.lookup identity = some c' → c' = c

/-- A connection that is served reads messages only, no write fails, and no connection is taken out of the map while another
one has its identity. -/
def Orderly (K : TcpCodec α β) (s : TcpServer β) : TcpInput β → Prop
  | .read c (.frame bytes) => ∀ identity, s.phase c = some (.serving identity) → K.isMessage bytes = true
  | .write _ sent => sent = true
  | .lock c => ∀ identity, s.phase c = some (.closing identity) → ∀ c', s.Live c' identity → c' = c
  | _ => True

/-- The steps of the task of a connection: from where to where, with which input and output, and what becomes of the map. -/
inductive Turn (K : TcpCodec α β) (s : TcpServer β) (c : Nat) :
    Option ConnectionPhase → TcpInput β → ConnectionPhase → TcpOutput α → Accounts Bytes32 Nat → Prop where
  | accept {i challenge} : Turn K s c none i (.challenged challenge) .quiet s.clients
  | unsent {i} : Turn K s c none i (.ended none) .quiet s.clients
  | welcome {i challenge identity} :
    Turn K s c (some (.challenged challenge)) i (.welcomed identity) .quiet s.clients
  | refuse {i challenge} : Turn K s c (some (.challenged challenge)) i (.ended none) .quiet s.clients
  | register {identity} :
    Turn K s c (some (.welcomed identity)) (.lock c) (.serving identity) .quiet (s.clients.insert identity c)
  | close {i identity} : Turn K s c (some (.serving identity)) i (.closing identity) .quiet s.clients
  | fail {i identity} :
    ¬ Orderly K s i →
    Turn K s c (some (.serving identity)) i (.ended (some identity)) .quiet s.clients
  | remove {identity} :
    Turn K s c (some (.closing identity)) (.lock c) (.removed identity) .quiet (s.clients.erase identity)
  | notify {identity} :
    Turn K s c (some (.removed identity)) (.notify c) (.ended (some identity)) (.disconnected identity) s.clients

/-- What a step does: nothing to the phases and the map, or a step of the task of one connection. -/
inductive Move (K : TcpCodec α β) (s : TcpServer β) (i : TcpInput β) (s' : TcpServer β) (o : TcpOutput α) : Prop where
  | stay :
    s'.phase = s.phase → s'.clients = s.clients → (∀ identity, o ≠ .disconnected identity) →
    Move K s i s' o
  | turn {c : Nat} {p : ConnectionPhase} :
    s'.phase = Function.update s.phase c (some p) → Turn K s c (s.phase c) i p o s'.clients →
    Move K s i s' o

section Steps
variable {K : TcpCodec α β} {s s' : TcpServer β} {i : TcpInput β} {o : TcpOutput α} {c : Nat} {p : ConnectionPhase}
  {clients : Accounts Bytes32 Nat} {identity : Bytes32} {tr : Record α β} {before : Option ConnectionPhase}

lemma phase_setPhase (h : s.phase c = some p) (p' : ConnectionPhase) :
    (s.setPhase c p').phase = Function.update s.phase c (some p') := by
  obtain ⟨connection, hc, _⟩ := Option.map_eq_some_iff.mp h
  funext c'
  rw [phase, setPhase, getElem?_modify, Function.update_apply]
  by_cases hcc : c' = c
  · subst hcc
    simp [hc]
  · simp [hcc, Ne.symm hcc, phase]

lemma Move.setPhase {p' : ConnectionPhase} (h : s.phase c = some p)
    (ht : Turn K s c (some p) i p' o clients) : Move K s i { s.setPhase c p' with clients } o :=
  .turn (phase_setPhase h p') (h ▸ ht)

lemma phase_set (h : s.phase c = some p) (p' : ConnectionPhase) (clientRx : List β) :
    phase ⟨s.connections.set c ⟨p', clientRx⟩, s.clients⟩ = Function.update s.phase c (some p') := by
  obtain ⟨connection, hc, _⟩ := Option.map_eq_some_iff.mp h
  funext c'
  rw [phase, Function.update_apply]
  by_cases hcc : c' = c
  · subst hcc
    rw [List.getElem?_set_self (List.getElem?_eq_some_iff.mp hc).1, if_pos rfl]
    rfl
  · rw [getElem?_set_ne (Ne.symm hcc), if_neg hcc]
    rfl

lemma phase_append (p : ConnectionPhase) : phase ⟨s.connections ++ [⟨p, []⟩], s.clients⟩
    = Function.update s.phase s.connections.length (some p) := by
  funext c'
  rw [Function.update_apply, phase, phase]
  obtain hlt | rfl | hgt := Nat.lt_trichotomy c' s.connections.length
  · rw [if_neg hlt.ne, getElem?_append_left hlt]
  · rw [if_pos rfl, getElem?_append_right (Nat.le_refl _), Nat.sub_self]
    rfl
  · rw [if_neg hgt.ne', getElem?_eq_none hgt.le, getElem?_eq_none]
    rw [length_append]
    exact hgt

lemma respond_turn {challenge : Bytes32} (incoming : Incoming) :
    Turn K s c (some (.challenged challenge)) i (respond K challenge incoming) .quiet s.clients := by
  cases incoming with
  | frame bytes =>
    rw [respond]
    split
    · split
      · split
        · exact .welcome
        · exact .refuse
      · exact .refuse
    · exact .refuse
  | error => exact .refuse
  | closed => exact .refuse

lemma receive_move (hc : s.phase c = some (.serving identity)) (incoming : Incoming) :
    Move K s (.read c incoming) (s.setPhase c (receive K identity incoming).1) (receive K identity incoming).2 := by
  have hclose : Move K s (.read c incoming) (s.setPhase c (.closing identity)) .quiet := .setPhase hc .close
  cases incoming with
  | frame bytes =>
    rw [receive]
    split
    · refine .stay ?_ rfl (by rintro _ ⟨⟩)
      rw [phase_setPhase hc, ← hc, Function.update_eq_self]
    · rename_i hno
      refine .setPhase hc (.fail fun hord => ?_)
      have hmessage := hord identity hc
      rw [TcpCodec.isMessage] at hmessage
      split at hmessage
      · rename_i message hm
        exact hno message hm
      · cases hmessage
  | error => exact hclose
  | closed => exact hclose

lemma next_move (h : next K s i = .ok (s', o)) : Move K s i s' o := by
  cases i with
  | accept challenge sent =>
    cases h
    have hnone : s.phase s.connections.length = none := by
      rw [phase, getElem?_eq_none (Nat.le_refl _)]
      rfl
    refine .turn (phase_append _) ?_
    rw [hnone]
    cases sent with
    | true => exact .accept
    | false => exact .unsent
  | read c incoming =>
    rw [next] at h
    split at h
    · rename_i challenge hc
      cases h
      exact .setPhase hc (respond_turn incoming)
    · rename_i identity hc
      cases h
      exact receive_move hc incoming
    · cases h
  | lock c =>
    rw [next] at h
    split at h
    · rename_i identity hc
      cases h
      exact .setPhase hc .register
    · rename_i identity hc
      cases h
      exact .setPhase hc .remove
    · cases h
  | notify c =>
    rw [next] at h
    split at h
    · rename_i identity hc
      cases h
      exact .setPhase hc .notify
    · cases h
  | write c sent =>
    rw [next] at h
    split at h
    · rename_i identity message clientRx hc
      cases h
      have hphase : s.phase c = some (.serving identity) := by rw [phase, hc]; rfl
      cases sent with
      | true =>
        refine .stay ?_ rfl (by rintro _ ⟨⟩)
        refine (phase_set hphase (.serving identity) clientRx).trans ?_
        rw [← hphase, Function.update_eq_self]
      | false =>
        refine .turn (phase_set hphase (.ended (some identity)) clientRx) ?_
        rw [hphase]
        exact .fail (by rintro ⟨⟩)
    · cases h
  | sendTo client message =>
    rw [next] at h
    split at h
    · cases h
      refine .stay ?_ rfl (by rintro _ ⟨⟩)
      funext c'
      rw [phase, phase, getElem?_modify]
      cases s.connections[c']? with
      | none => rfl
      | some connection =>
        simp only [Option.map_eq_map, Option.map_some]
        split <;> rfl
    · cases h
      exact .stay rfl rfl (by rintro _ ⟨⟩)

lemma live_update (h : s'.phase = Function.update s.phase c (some p)) {c' : Nat} :
    s'.Live c' identity ↔ if c' = c then p = .serving identity ∨ p = .closing identity else s.Live c' identity := by
  rw [Live, h, Function.update_apply]
  split
  · rw [Option.some_inj, Option.some_inj]
  · rfl

lemma notifications_of_ne {ev : Event (TcpServer β) (TcpInput β) (TcpOutput α)}
    (h : ∀ identity, ev.output ≠ .disconnected identity) (c : Nat) :
    notifications (ev :: tr) c = notifications tr c := by
  have hnone : notification ev = none := by
    rw [notification]
    split
    · rename_i identity _ ho
      exact absurd ho (h identity)
    · rfl
  rw [notifications, filterMap_cons_none hnone]
  rfl

lemma notifications_notify (c' : Nat) :
    notifications (⟨s, .notify c, .disconnected identity, s'⟩ :: tr) c'
      = if c = c' then (c, identity) :: notifications tr c' else notifications tr c' := by
  by_cases hc : c = c' <;> simp [notifications, notification, hc]

lemma notifications_turn (ht : Turn K s c before i p o clients) {c' : Nat} (hc : c' ≠ c) :
    notifications (⟨s, i, o, s'⟩ :: tr) c' = notifications tr c' := by
  cases ht with
  | notify => rw [notifications_notify, if_neg (Ne.symm hc)]
  | _ => exact notifications_of_ne (by rintro _ ⟨⟩) c'

lemma Turn.of_disconnected (ht : Turn K s c before i p (.disconnected identity) clients) :
    p = .ended (some identity) := by
  cases ht
  rfl

/-- A connection that has not ended has notified nobody. -/
def Silent (tr : Record α β) (s : TcpServer β) : Prop :=
  ∀ c, (∀ identity, s.phase c ≠ some (.ended (some identity))) → notifications tr c = []

/-- Only the end of a connection notifies. -/
lemma Silent.step (h : Silent tr s) (st : Move K s i s' o) : Silent (⟨s, i, o, s'⟩ :: tr) s' := by
  intro c' hc'
  cases st with
  | stay hp _ ho =>
    rw [notifications_of_ne ho]
    rw [hp] at hc'
    exact h c' hc'
  | @turn c p hp ht =>
    rw [hp, Function.update_apply] at hc'
    by_cases hcc : c' = c
    · subst hcc
      simp only [if_pos] at hc'
      have hquiet : ∀ identity, o ≠ .disconnected identity := by
        rintro identity rfl
        exact hc' identity (by rw [ht.of_disconnected])
      rw [notifications_of_ne hquiet]
      refine h c' fun identity hended => ?_
      rw [hended] at ht
      cases ht
    · rw [if_neg hcc] at hc'
      rw [notifications_turn ht hcc]
      exact h c' hc'

lemma silent_of_run (r : (machine K).Run tr s) : Silent tr s :=
  r.history (P := Silent) (fun _ _ _ _ => rfl) fun _ _ _ _ _ _ h st => h.step (next_move st)

/-- The entries of the map are connections that are there, and each that is there has an entry of its identity. -/
structure Registered (s : TcpServer β) : Prop where
  entry : ∀ identity c, s.clients.lookup identity = some c → s.Live c identity
  live : ∀ c identity, s.Live c identity → (s.clients.lookup identity).isSome

lemma Registered.of_same (h : Registered s) (hp : s'.phase = Function.update s.phase c (some p))
    (hsame : ∀ identity, p = .serving identity ∨ p = .closing identity ↔ s.Live c identity)
    (hclients : s'.clients = s.clients) : Registered s' := by
  have hlive : ∀ c' identity, s'.Live c' identity ↔ s.Live c' identity := by
    intro c' identity
    rw [live_update hp]
    split
    · rename_i hc
      rw [hc, hsame]
    · rfl
  refine ⟨fun identity c' h' => ?_, fun c' identity h' => ?_⟩
  · rw [hclients] at h'
    exact (hlive c' identity).mpr (h.entry identity c' h')
  · rw [hclients]
    exact h.live c' identity ((hlive c' identity).mp h')

lemma Registered.register (h : Registered s) (hc : s.phase c = some (.welcomed identity))
    (hp : s'.phase = Function.update s.phase c (some (.serving identity)))
    (hclients : s'.clients = s.clients.insert identity c) : Registered s' := by
  refine ⟨fun identity' c' h' => ?_, fun c' identity' h' => ?_⟩
  · rw [hclients] at h'
    rw [live_update hp]
    obtain ⟨rfl, rfl⟩ | ⟨_, h'⟩ := Accounts.lookup_insert_eq_some h'
    · rw [if_pos rfl]
      exact .inl rfl
    · have hlive := h.entry identity' c' h'
      rw [if_neg]
      · exact hlive
      · rintro rfl
        rw [Live, hc] at hlive
        obtain ⟨⟨⟩⟩ | ⟨⟨⟩⟩ := hlive
  · rw [hclients]
    by_cases hi : identity' = identity
    · rw [hi, AList.lookup_insert]
      rfl
    · rw [AList.lookup_insert_ne hi]
      rw [live_update hp] at h'
      split at h'
      · obtain h' | h' := h'
        · exact absurd (ConnectionPhase.serving.inj h').symm hi
        · cases h'
      · exact h.live c' identity' h'

lemma Registered.remove (h : Registered s) (hc : s.phase c = some (.closing identity))
    (hp : s'.phase = Function.update s.phase c (some (.removed identity)))
    (hclients : s'.clients = s.clients.erase identity) (halone : ∀ c', s.Live c' identity → c' = c) :
    Registered s' := by
  refine ⟨fun identity' c' h' => ?_, fun c' identity' h' => ?_⟩
  · have hi : identity' ≠ identity := by
      rintro rfl
      rw [hclients, AList.lookup_erase] at h'
      cases h'
    rw [hclients, AList.lookup_erase_ne hi] at h'
    have hlive := h.entry identity' c' h'
    rw [live_update hp, if_neg]
    · exact hlive
    · rintro rfl
      rw [Live, hc] at hlive
      obtain h | h := hlive
      · cases h
      · exact hi (ConnectionPhase.closing.inj (Option.some.inj h)).symm
  · rw [live_update hp] at h'
    split at h'
    · obtain ⟨⟨⟩⟩ | ⟨⟨⟩⟩ := h'
    · rename_i hcc
      have hi : identity' ≠ identity := by
        rintro rfl
        exact hcc (halone c' h')
      rw [hclients, AList.lookup_erase_ne hi]
      exact h.live c' identity' h'

/-- While steps are orderly, entries and connections go together. -/
lemma Registered.step (h : Registered s) (st : Move K s i s' o) (hord : Orderly K s i) : Registered s' := by
  cases st with
  | stay hp hclients _ =>
    refine ⟨fun identity c' h' => ?_, fun c' identity h' => ?_⟩
    · rw [hclients] at h'
      rw [Live, hp]
      exact h.entry identity c' h'
    · rw [Live, hp] at h'
      rw [hclients]
      exact h.live c' identity h'
  | @turn c p hp ht =>
    generalize hb : s.phase c = before at ht
    generalize hclients : s'.clients = clients at ht
    have hout : (∀ identity, s.phase c ≠ some (.serving identity) ∧ s.phase c ≠ some (.closing identity)) →
        (∀ identity, p ≠ .serving identity ∧ p ≠ .closing identity) → clients = s.clients → Registered s' := by
      rintro hbefore hafter rfl
      refine h.of_same hp (fun identity => ?_) hclients
      exact iff_of_false (not_or.mpr (hafter identity)) (not_or.mpr (hbefore identity))
    rw [hb] at hout
    cases ht with
    | register => exact h.register hb hp hclients
    | remove => exact h.remove hb hp hclients (hord _ hb)
    | @close _ identity =>
      refine h.of_same hp (fun identity' => ?_) hclients
      rw [Live, hb]
      simp
    | fail hfail => exact absurd hord hfail
    | _ => exact hout (fun _ => ⟨by rintro ⟨⟩, by rintro ⟨⟩⟩) (fun _ => ⟨by rintro ⟨⟩, by rintro ⟨⟩⟩) rfl

/-- Each connection that has ended has caused one notification. -/
def Notified (tr : Record α β) (s : TcpServer β) : Prop :=
  ∀ c identity, s.phase c = some (.ended (some identity)) → notifications tr c = [(c, identity)]

/-- While steps are orderly, each end is notified once. -/
lemma Notified.step (h : Notified tr s) (hsilent : Silent tr s) (st : Move K s i s' o)
    (hord : Orderly K s i) : Notified (⟨s, i, o, s'⟩ :: tr) s' := by
  intro c' identity hc'
  cases st with
  | stay hp _ ho =>
    rw [notifications_of_ne ho]
    rw [hp] at hc'
    exact h c' identity hc'
  | @turn c p hp ht =>
    by_cases hcc : c' = c
    · subst hcc
      rw [hp, Function.update_self, Option.some_inj] at hc'
      generalize hb : s.phase c' = before at ht
      generalize s'.clients = clients at ht
      cases ht with
      | fail hfail => exact absurd hord hfail
      | notify =>
        cases hc'
        have hnone : notifications tr c' = [] := by
          refine hsilent c' fun identity => ?_
          rw [hb]
          rintro ⟨⟩
        rw [notifications_notify, if_pos rfl, hnone]
      | _ => cases hc'
    · rw [hp, Function.update_apply, if_neg hcc] at hc'
      rw [notifications_turn ht hcc]
      exact h c' identity hc'

lemma registered_of_orderly (r : (machine K).Run tr s) (hord : ∀ ev ∈ tr, Orderly K ev.before ev.input) :
    Registered s ∧ Notified tr s := by
  refine r.history (P := fun tr s => (∀ ev ∈ tr, Orderly K ev.before ev.input) → Registered s ∧ Notified tr s) ?_ ?_ hord
  · rintro s rfl _
    refine ⟨⟨?_, ?_⟩, ?_⟩
    · rintro _ _ ⟨⟩
    · rintro _ _ (⟨⟨⟩⟩ | ⟨⟨⟩⟩)
    · rintro _ _ ⟨⟩
  · intro tr s i s' o r ih st hord
    obtain ⟨hev, hord⟩ := forall_mem_cons.mp hord
    obtain ⟨hreg, hnot⟩ := ih hord
    exact ⟨hreg.step (next_move st) hev, hnot.step (silent_of_run r) (next_move st) hev⟩

lemma notifications_error (hsilent : Silent tr s) (st : Move K s i s' o)
    (hb : s.phase c = some (.serving identity)) (ha : s'.phase c = some (.ended (some identity))) :
    notifications (⟨s, i, o, s'⟩ :: tr) c = [] := by
  have hnone : notifications tr c = [] := by
    refine hsilent c fun identity => ?_
    rw [hb]
    rintro ⟨⟩
  cases st with
  | stay hp _ _ =>
    rw [hp, hb] at ha
    cases ha
  | @turn c' p hp ht =>
    by_cases hcc : c = c'
    · subst hcc
      have hquiet : ∀ identity, o ≠ .disconnected identity := by
        rintro identity' rfl
        rw [hb] at ht
        cases ht
      rw [notifications_of_ne hquiet, hnone]
    · rw [hp, Function.update_apply, if_neg hcc, hb] at ha
      cases ha

/-- After a frame that is no message, and after a write that fails, a connection that was served has ended. -/
lemma ended_of_not_orderly (h : next K s i = .ok (s', o)) (hlock : ∀ c, i ≠ .lock c) (hord : ¬ Orderly K s i) :
    ∃ c identity, s.phase c = some (.serving identity) ∧ s'.phase c = some (.ended (some identity)) := by
  cases i with
  | read c incoming =>
    cases incoming with
    | frame bytes =>
      simp only [Orderly, not_forall] at hord
      obtain ⟨identity, hc, hmessage⟩ := hord
      refine ⟨c, identity, hc, ?_⟩
      have hreceive : receive K identity (.frame bytes) = (.ended (some identity), .quiet) := by
        rw [receive]
        split
        · rename_i message hm
          rw [TcpCodec.isMessage, hm] at hmessage
          exact absurd rfl hmessage
        · rfl
      simp only [next, hc, hreceive] at h
      cases h
      rw [phase_setPhase hc, Function.update_self]
    | error | closed => exact absurd trivial hord
  | lock c => exact absurd rfl (hlock c)
  | write c sent =>
    rw [next] at h
    split at h
    · rename_i identity message clientRx hc
      have hphase : s.phase c = some (.serving identity) := by rw [phase, hc]; rfl
      cases sent with
      | true => exact absurd rfl hord
      | false =>
        cases h
        exact ⟨c, identity, hphase, by rw [phase_set hphase, Function.update_self]; rfl⟩
    · cases h
  | accept | notify | sendTo => exact absurd trivial hord

/-- The registry of clients is exact in just those runs in which every step is orderly: at every moment an identity is in
the map if and only if it has an authenticated connection that has not ended, each that has ended has caused one
notification, and no connection takes the entry of another one out of the map. -/
theorem registry_exact_iff {tr : Record α β} (r : (machine K).Run tr s) :
    Machine.Always Exact tr ∧ (∀ ev ∈ tr, OwnEntry ev) ↔ ∀ ev ∈ tr, Orderly K ev.before ev.input := by
  constructor
  · rintro ⟨hexact, _⟩ ev hev
    obtain ⟨later, earlier, rfl⟩ := append_of_mem hev
    obtain ⟨rbefore, st⟩ := r.split
    have hafter := hexact later ev earlier rfl
    obtain ⟨before, i, o, after⟩ := ev
    by_contra hord
    by_cases hlock : ∃ c, i = .lock c
    · obtain ⟨c, rfl⟩ := hlock
      simp only [Orderly, not_forall] at hord
      obtain ⟨identity, hc, c', hlive, hcc⟩ := hord
      -- the entry of the identity is gone, and the other connection is still there
      have hst : next K before (.lock c) = .ok (after, o) := st
      rw [next, hc] at hst
      cases hst
      have hsome := (hafter.registered identity).mpr ⟨c', (live_update (phase_setPhase hc _)).mpr (by rwa [if_neg hcc])⟩
      rw [AList.lookup_erase] at hsome
      cases hsome
    · obtain ⟨c, identity, hserving, hended⟩ := ended_of_not_orderly st (not_exists.mp hlock) hord
      have hone := hafter.notified c identity hended
      rw [notifications_error (silent_of_run rbefore) (next_move st) hserving hended] at hone
      cases hone
  · intro hord
    refine ⟨?_, ?_⟩
    · rintro later ev earlier rfl
      obtain ⟨rbefore, st⟩ := r.split
      obtain ⟨hreg, hnot⟩ := registered_of_orderly (.accept rbefore st)
        (fun ev' hev' => hord ev' (mem_append_right _ hev'))
      refine ⟨fun identity => ⟨?_, ?_⟩, hnot⟩
      · intro h
        obtain ⟨c, hc⟩ := Option.isSome_iff_exists.mp h
        exact ⟨c, hreg.entry identity c hc⟩
      · rintro ⟨c, h⟩
        exact hreg.live c identity h
    · intro ev hev c identity hi hc c' hc'
      obtain ⟨later, earlier, rfl⟩ := append_of_mem hev
      obtain ⟨rbefore, _⟩ := r.split
      obtain ⟨hreg, _⟩ := registered_of_orderly rbefore (fun ev' hev' => hord ev' (by simp [hev']))
      have halone := hord ev hev
      rw [hi] at halone
      exact halone identity hc c' (hreg.entry identity c' hc')

end Steps

section Overlapping

/-- A code for messages: `0` and an answer, or `1` and a message. An answer is signed by whom it names. -/
def plainCodec : TcpCodec Bytes Bytes where
  fromBytes
    | 0 :: response => some (.challengeResponse response)
    | 1 :: message => some (.else_ message)
    | _ => none
  responseFromBytes
    | 0 :: response => some (.challengeResponse response)
    | 1 :: message => some (.else_ message)
    | _ => none
  verifyAndDecode
    | [identity, challenge] => some (identity.setWidth 256, challenge.setWidth 256)
    | _ => none

def connect (c : Nat) (challenge : BitVec 8) : List (TcpInput Bytes) :=
  [.accept (challenge.setWidth 256) true, .read c (.frame [0, 9, challenge]), .lock c]

/-- A client connects again before its first connection has ended, and then that one ends. -/
def reconnected : Record Bytes Bytes × TcpServer Bytes :=
  (machine plainCodec).play [] ⟨[], ∅⟩ (connect 0 5 ++ connect 1 6 ++ [.read 0 .closed, .lock 0, .notify 0])

/-- A client connects and sends a frame that is no message. -/
def garbled : Record Bytes Bytes × TcpServer Bytes :=
  (machine plainCodec).play [] ⟨[], ∅⟩ (connect 0 5 ++ [.read 0 (.frame [])])

/-- A client that is connected is not in the map, and was reported as gone; one that is gone is in the map, and was not. -/
theorem registry_lost_and_stale :
    (machine plainCodec).Run reconnected.1 reconnected.2 ∧ (machine plainCodec).Run garbled.1 garbled.2
    ∧ (reconnected.2.phase 1 = some (.serving 9) ∧ reconnected.2.clients.lookup 9 = none)
    ∧ notifications reconnected.1 0 = [(0, 9)]
    ∧ (garbled.2.phase 0 = some (.ended (some 9)) ∧ garbled.2.clients.lookup 9 = some 0)
    ∧ notifications garbled.1 0 = [] := by
  have hinit : (machine plainCodec).Run [] ⟨[], ∅⟩ := .init rfl
  exact ⟨hinit.play _, hinit.play _, by decide +kernel⟩

instance (s : TcpServer β) (c : Nat) (identity : Bytes32) : Decidable (s.Live c identity) :=
  inferInstanceAs (Decidable (_ ∨ _))

/-- A condition on the identity of a connection that may be served. -/
instance decidableServing (phase : Option ConnectionPhase) (Q : Prop) [Decidable Q] :
    Decidable (∀ identity, phase = some (.serving identity) → Q) :=
  match phase with
  | some (.serving identity) => decidable_of_iff Q ⟨fun h _ _ => h, fun h => h identity rfl⟩
  | none | some (.challenged _) | some (.welcomed _) | some (.closing _) | some (.removed _) | some (.ended _) =>
    .isTrue (by rintro _ ⟨⟩)

/-- Only the connections that have been accepted can have an identity. -/
lemma forall_live_iff {s : TcpServer β} {c : Nat} {identity : Bytes32} :
    (∀ c' < s.connections.length, s.Live c' identity → c' = c) ↔ ∀ c', s.Live c' identity → c' = c := by
  refine ⟨fun h c' hlive => h c' ?_ hlive, fun h c' _ => h c'⟩
  by_contra hge
  rw [Live, phase, getElem?_eq_none (Nat.not_lt.mp hge)] at hlive
  obtain ⟨⟨⟩⟩ | ⟨⟨⟩⟩ := hlive

@[inherit_doc decidableServing]
instance decidableClosing (s : TcpServer β) (c : Nat) (phase : Option ConnectionPhase) :
    Decidable (∀ identity, phase = some (.closing identity) → ∀ c', s.Live c' identity → c' = c) :=
  match phase with
  | some (.closing identity) => decidable_of_iff (∀ c' < s.connections.length, s.Live c' identity → c' = c)
    ⟨by rintro h _ ⟨⟩; exact forall_live_iff.mp h, fun h => forall_live_iff.mpr (h identity rfl)⟩
  | none | some (.challenged _) | some (.welcomed _) | some (.serving _) | some (.removed _) | some (.ended _) =>
    .isTrue (by rintro _ ⟨⟩)

instance (K : TcpCodec α β) (s : TcpServer β) : DecidablePred (Orderly K s)
  | .read _ (.frame _) => decidableServing _ _
  | .write _ sent => inferInstanceAs (Decidable (sent = true))
  | .lock _ => decidableClosing _ _ _
  | .read _ .error | .read _ .closed | .accept _ _ | .notify _ | .sendTo _ _ => .isTrue trivial

/-- A client connects, sends a message and leaves, and connects again when its first connection has ended. -/
def inTurn : Record Bytes Bytes × TcpServer Bytes :=
  (machine plainCodec).play [] ⟨[], ∅⟩
    (connect 0 5 ++ [.read 0 (.frame [1, 7]), .read 0 .closed, .lock 0, .notify 0] ++ connect 1 6)

/-- A peer that reconnects after its connection ended has one entry, that of the new connection. -/
theorem registry_exact_inTurn : inTurn.2.phase 0 = some (.ended (some 9)) ∧ inTurn.2.phase 1 = some (.serving 9)
    ∧ inTurn.2.clients.lookup 9 = some 1 ∧ notifications inTurn.1 0 = [(0, 9)] ∧ Machine.Always Exact inTurn.1
    ∧ ∀ ev ∈ inTurn.1, OwnEntry ev := by
  have hinit : (machine plainCodec).Run [] ⟨[], ∅⟩ := .init rfl
  have hord : ∀ ev ∈ inTurn.1, Orderly plainCodec ev.before ev.input := by decide +kernel
  exact ⟨by decide +kernel, by decide +kernel, by decide +kernel, by decide +kernel,
    (registry_exact_iff (hinit.play _)).mpr hord⟩

end Overlapping

end TcpServer
end Leviathan
