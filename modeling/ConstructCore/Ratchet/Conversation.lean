import ConstructCore.Ratchet.Run

/-!
# Two sessions and the network between them

An initiator and a responder that share a root key. The network keeps every message written
and hands any of them to the other side, in any order and any number of times; what it never
hands over is lost. The responder's session is made from the first of the initiator's
messages that reaches it, and may answer the initiator's identity before it writes.
-/

namespace ConstructCore

open Bytes Op

/-- What both sides hold before the first message. -/
structure Setup where
  suiteId : SuiteID
  rootKey : Bytes
  ephemeralPrivate : Bytes
  identityPrivate : Bytes
  identityPublic : Bytes
  initiatorId : Bytes
  responderId : Bytes
  /-- The secret and the ciphertext of the identity answer, if there is to be one. -/
  answer : Option (Bytes × Bytes)

inductive Party where
  | initiator
  | responder
deriving DecidableEq, Repr

def Party.other : Party → Party
  | initiator => responder
  | responder => initiator

/-- A message as it was written: with the plaintext given to `encrypt` and the PQ key it took. -/
structure Letter where
  message : EncryptedRatchetMessage
  plaintext : Bytes
  pqKey : Option Bytes
deriving DecidableEq

/-- The two sessions and what was written so far. -/
structure Talk where
  initiator : Session
  responder : Option Session
  /-- The answer the responder still has to give before it writes. -/
  toAnswer : Option (Bytes × Bytes)
  fromInitiator : List Letter
  fromResponder : List Letter

inductive TalkEvent where
  | write (writer : Party) (env : Env) (plaintext : Bytes)
  /-- Hand the `i`-th message of the other side to the reader. -/
  | deliver (reader : Party) (env : Env) (i : Nat)
  | answer

inductive TalkSeen where
  | drew (publicKey : Bytes)
  | read (reader : Party) (letter : Letter)
deriving DecidableEq

def drawnKey (C : Crypto) (env : Env) : List Bytes :=
  match C.generateKemKeys env.dhSeed with
  | .ok pair => [pair.2]
  | .error _ => []

namespace Session

def nextPqKey (C : Crypto) (env : Env) (s : Session) : Option Bytes :=
  match PqRatchet.pqSendKey C s.suiteId (s.startedPq C env) with
  | .ok out _ => out.2.2
  | .error _ _ => none

/-- `encrypt`, with the letter it makes. -/
def write (C : Crypto) (env : Env) (plaintext : Bytes) (s : Session) : Session × List Letter :=
  match encrypt C env plaintext s with
  | .ok m t => (t, [⟨m, plaintext, s.nextPqKey C env⟩])
  | .error _ t => (t, [])

/-- `decrypt_with_identity_secret`, with the letters it accepts. -/
def read (C : Crypto) (env : Env) (secret : Option Bytes) (letter : Letter) (s : Session) :
    Session × List Letter :=
  match decryptWithIdentitySecret C env letter.message secret s with
  | .ok _ t => (t, [letter])
  | .error _ t => (t, [])

end Session

namespace Talk

/-- The initiator's session; one that is to be answered waits for the answer. -/
def start (C : Crypto) (setup : Setup) (env : Env) : Except RatchetError Talk := do
  let s ← newInitiatorSession C env setup.rootKey setup.ephemeralPrivate setup.identityPublic
    setup.responderId setup.initiatorId setup.suiteId
  return {
    initiator := if setup.answer.isSome then s.expectIdentityAnswer else s
    responder := none
    toAnswer := none
    fromInitiator := []
    fromResponder := [] }

/-- The secret the initiator reads with: the one in the answer's ciphertext. -/
def answerSecret (setup : Setup) : Option Bytes := setup.answer.map Prod.fst

/-- A letter of the initiator reaches the responder: the first one makes the session. -/
def toResponder (C : Crypto) (setup : Setup) (t : Talk) (env : Env) (letter : Letter) :
    Talk × List Letter :=
  match t.responder with
  | some s =>
    let out := s.read C env none letter
    ({ t with responder := some out.1 }, out.2)
  | none =>
    match newResponderSession C env setup.rootKey setup.identityPrivate letter.message
        setup.initiatorId setup.responderId with
    | .ok (s, _) => ({ t with responder := some s, toAnswer := setup.answer }, [letter])
    | .error _ => (t, [])

def toInitiator (C : Crypto) (setup : Setup) (t : Talk) (env : Env) (letter : Letter) :
    Talk × List Letter :=
  let out := t.initiator.read C env (answerSecret setup) letter
  ({ t with initiator := out.1 }, out.2)

def step (C : Crypto) (setup : Setup) (t : Talk) : TalkEvent → Talk × List TalkSeen
  | .write .initiator env plaintext =>
    let out := t.initiator.write C env plaintext
    ({ t with initiator := out.1, fromInitiator := t.fromInitiator ++ out.2 }, [])
  | .write .responder env plaintext =>
    match t.responder, t.toAnswer with
    | some s, none =>
      let out := s.write C env plaintext
      ({ t with responder := some out.1, fromResponder := t.fromResponder ++ out.2 }, [])
    | _, _ => (t, [])
  | .deliver .initiator env i =>
    match t.fromResponder[i]? with
    | none => (t, [])
    | some letter =>
      let out := t.toInitiator C setup env letter
      (out.1, (drawnKey C env).map .drew ++ out.2.map (.read .initiator))
  | .deliver .responder env i =>
    match t.fromInitiator[i]? with
    | none => (t, [])
    | some letter =>
      let out := t.toResponder C setup env letter
      (out.1, (drawnKey C env).map .drew ++ out.2.map (.read .responder))
  | .answer =>
    match t.responder, t.toAnswer with
    | some s, some (secret, ciphertext) =>
      match Session.answerInitiatorIdentity C secret ciphertext s with
      | .ok _ s => ({ t with responder := some s, toAnswer := none }, [])
      | .error _ _ => (t, [])
    | _, _ => (t, [])

def session (t : Talk) : Party → Option Session
  | .initiator => some t.initiator
  | .responder => t.responder

def lettersFor (t : Talk) : Party → List Letter
  | .initiator => t.fromResponder
  | .responder => t.fromInitiator

def draws (log : List TalkSeen) : List Bytes :=
  log.filterMap fun
    | .drew key => some key
    | .read _ _ => none

def reads (reader : Party) (log : List TalkSeen) : List Letter :=
  log.filterMap fun
    | .drew _ => none
    | .read party letter => if party = reader then some letter else none

theorem draws_append (l l' : List TalkSeen) : draws (l ++ l') = draws l ++ draws l' :=
  List.filterMap_append

theorem reads_append (reader : Party) (l l' : List TalkSeen) :
    reads reader (l ++ l') = reads reader l ++ reads reader l' :=
  List.filterMap_append

theorem draws_drew (keys : List Bytes) : draws (keys.map .drew) = keys := by
  induction keys with
  | nil => rfl
  | cons k ks ih => exact congrArg (k :: ·) ih

theorem draws_read (reader : Party) (letters : List Letter) :
    draws (letters.map (.read reader)) = [] := by
  induction letters with
  | nil => rfl
  | cons x xs ih => exact ih

theorem reads_drew (party : Party) (keys : List Bytes) : reads party (keys.map .drew) = [] := by
  induction keys with
  | nil => rfl
  | cons k ks ih => exact ih

theorem reads_read (reader party : Party) (letters : List Letter) :
    reads party (letters.map (.read reader)) = if reader = party then letters else [] := by
  unfold reads
  by_cases hparty : reader = party
  · simp only [List.filterMap_map, Function.comp_def, if_pos hparty, List.filterMap_some]
  · simp only [List.filterMap_map, Function.comp_def, if_neg hparty, List.filterMap_none]

section Step

variable {C : Crypto} {setup : Setup} {t : Talk} {env : Env} {i : Nat} {letter : Letter}

theorem step_lost {reader : Party} (h : (t.lettersFor reader)[i]? = none) :
    t.step C setup (.deliver reader env i) = (t, []) := by
  cases reader with
  | initiator =>
    show (match t.fromResponder[i]? with | none => (t, []) | some letter => _) = _
    rw [show t.fromResponder[i]? = none from h]
  | responder =>
    show (match t.fromInitiator[i]? with | none => (t, []) | some letter => _) = _
    rw [show t.fromInitiator[i]? = none from h]

theorem step_toInitiator (h : t.fromResponder[i]? = some letter) :
    t.step C setup (.deliver .initiator env i) =
      ((t.toInitiator C setup env letter).1, (drawnKey C env).map .drew ++
        (t.toInitiator C setup env letter).2.map (.read .initiator)) := by
  show (match t.fromResponder[i]? with | none => (t, []) | some letter => _) = _
  rw [h]

theorem step_toResponder (h : t.fromInitiator[i]? = some letter) :
    t.step C setup (.deliver .responder env i) =
      ((t.toResponder C setup env letter).1, (drawnKey C env).map .drew ++
        (t.toResponder C setup env letter).2.map (.read .responder)) := by
  show (match t.fromInitiator[i]? with | none => (t, []) | some letter => _) = _
  rw [h]

theorem toResponder_some {s : Session} (h : t.responder = some s) :
    t.toResponder C setup env letter =
      ({ t with responder := some (s.read C env none letter).1 }, (s.read C env none letter).2) := by
  unfold toResponder
  rw [h]

theorem toResponder_none (h : t.responder = none) :
    (∃ s plaintext, newResponderSession C env setup.rootKey setup.identityPrivate letter.message
        setup.initiatorId setup.responderId = .ok (s, plaintext) ∧
      t.toResponder C setup env letter =
        ({ t with responder := some s, toAnswer := setup.answer }, [letter])) ∨
      t.toResponder C setup env letter = (t, []) := by
  unfold toResponder
  rw [h]
  dsimp only
  cases newResponderSession C env setup.rootKey setup.identityPrivate letter.message
      setup.initiatorId setup.responderId with
  | ok out => exact .inl ⟨out.1, out.2, rfl, rfl⟩
  | error e => exact .inr rfl

end Step

end Talk

/-! ## What writing and reading can do -/

namespace Session

variable {C : Crypto} {s : Session}

/-- What writing a letter can do. -/
inductive WriteCase (C : Crypto) (env : Env) (plaintext : Bytes) (s : Session) :
    Session × List Letter → Prop
  | sent {padded : Bytes} {pos : SendPosition} {m : EncryptedRatchetMessage} {t : Session}
      (hpad : padMessageDefault plaintext = .ok padded) (hstep : SendStep C env s pos t)
      (hseal : SealedAs C t pos padded m) :
      WriteCase C env plaintext s (t, [⟨m, plaintext, s.nextPqKey C env⟩])
  | unsent {t : Session} (hleft : SendLeft C env s t) : WriteCase C env plaintext s (t, [])

theorem write_case (env : Env) (plaintext : Bytes) (s : Session) :
    WriteCase C env plaintext s (s.write C env plaintext) := by
  have hspec := encrypt_spec (C := C) env plaintext s
  unfold write
  cases hrun : encrypt C env plaintext s with
  | ok m t =>
    obtain ⟨pos, padded, hpad, hstep, hseal⟩ := hspec.of_ok hrun
    exact .sent hpad hstep hseal
  | error e t => exact .unsent (hspec.of_error hrun)

/-- What reading a letter can do. -/
inductive ReadCase (C : Crypto) (env : Env) (secret : Option Bytes) (letter : Letter)
    (s : Session) : Session × List Letter → Prop
  | accepted {key plaintext : Bytes} {stepped : Bool} {t : Session} {pq : PqRatchet}
      (hkey : ClassicalKey C env letter.message secret (s.cleanupIfDue env.now) key stepped t)
      (hopen : Opens C env letter.message t key pq plaintext) :
      ReadCase C env secret letter s
        ({ t.finish C env letter.message stepped pq with prekeyHeader := none }, [letter])
  | refused {t : Session} (hroll : RolledBack (s.cleanupIfDue env.now) t) :
      ReadCase C env secret letter s (t, [])

theorem read_case (env : Env) (secret : Option Bytes) (letter : Letter) (s : Session) :
    ReadCase C env secret letter s (s.read C env secret letter) := by
  unfold read
  cases hrun : decryptWithIdentitySecret C env letter.message secret s with
  | ok plaintext t =>
    obtain ⟨key, stepped, t', pq, hkey, hopen, rfl⟩ := decryptWithIdentitySecret_ok hrun
    exact .accepted hkey hopen
  | error e t => exact .refused (decrypt_error_rolledBack hrun)

end Session

end ConstructCore
