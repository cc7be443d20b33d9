import ConstructCore.Lib.Bytes

/-!
# The rows of the store

`store/src/model.rs` and the tables of `store/src/migrations.rs` at the current schema. Texts and
blobs are their bytes. A message row has a row id beside its columns, since its table declares no
integer key; an entry of `message_search` is found by the row id of its message. A table is a list
of rows.
-/

namespace ConstructCore.Store

open Bytes

/-! ## Rows -/

structure Contact where
  id : Bytes
  username : Bytes := []
  displayName : Bytes := []
  localAlias : Option Bytes := none
  avatar : Option Bytes := none
  knownIdentityKey : Option Bytes := none
  accountAddress : Option Bytes := none
  isContact : Bool := false
  isBlocked : Bool := false
  isSharingWithMe : Bool := false
  amISharingWith : Bool := false
  sharedWithMeAt : Option Int := none
  addedAt : Option Int := none
  ktStatus : Int := 0
  securityNotice : Int := 0
  profileEditedAtMs : Int := 0
  pendingAvatarRef : Option Bytes := none
  pendingAvatarSince : Option Int := none
deriving DecidableEq

structure OwnProfile where
  accountId : Bytes
  username : Bytes
  displayName : Bytes
  avatar : Option Bytes
  profileEditedAtMs : Int
deriving DecidableEq

structure Chat where
  id : Bytes
  peerId : Bytes
  lastMessageText : Option Bytes := none
  lastMessageTime : Option Int := none
  isPinned : Bool := false
  unreadCount : Int := 0
deriving DecidableEq

structure Message where
  id : Bytes
  chatId : Bytes
  fromUserId : Bytes := []
  toUserId : Bytes := []
  isSentByMe : Bool := false
  timestamp : Int := 0
  orderKey : Bytes := []
  body : Bytes := []
  contentType : Int := 0
  deliveryStatus : Int := 0
  retryCount : Int := 0
  suiteId : Int := 0
  isEdited : Bool := false
  editedAt : Option Int := none
  replyToMessageId : Option Bytes := none
  replyToContent : Option Bytes := none
  transcriptText : Option Bytes := none
  transcriptLanguage : Option Bytes := none
  transcriptGeneratedAt : Option Int := none
deriving DecidableEq

/-- A row of `messages`. -/
structure MessageRow extends Message where
  rowid : Nat
deriving DecidableEq

/-- A row of `message_search`. -/
structure SearchRow where
  rowid : Nat
  text : Bytes
deriving DecidableEq

structure Reaction where
  targetMessageId : Bytes
  reactorUserId : Bytes
  emoji : Bytes := []
  timestampMs : Int := 0
  receivedAt : Option Int := none
deriving DecidableEq

structure CallRecord where
  id : Bytes
  peerUserId : Bytes
  peerName : Bytes := []
  direction : Int := 0
  status : Int := 0
  startedAt : Option Int := none
  endedAt : Option Int := none
  durationSeconds : Int := 0
deriving DecidableEq

structure PeerDevice where
  deviceId : Bytes
  accountId : Bytes
  identityKey : Bytes := []
  firstSeenAt : Int := 0
deriving DecidableEq

structure PendingChunk where
  senderId : Bytes
  messageId : Bytes
  chunkIndex : Nat
  totalChunks : Nat := 0
  plaintextLength : Nat := 0
  contentType : Nat := 0
  payload : Bytes := []
  envelopeId : Option Bytes := none
  receivedAt : Int := 0
deriving DecidableEq

structure PendingResend where
  messageId : Bytes
  deviceId : Bytes
  accountId : Bytes
  createdAt : Int := 0
  attempts : Nat := 0
deriving DecidableEq

structure IssuedInvite where
  jti : Bytes
  kind : Bytes := []
  issuedAt : Int := 0
  ttlSeconds : Nat := 0
  sitting : Option Bytes := none
deriving DecidableEq

/-- The database. -/
structure Db where
  contacts : List Contact := []
  chats : List Chat := []
  messages : List MessageRow := []
  messageSearch : List SearchRow := []
  reactions : List Reaction := []
  calls : List CallRecord := []
  peerDevices : List PeerDevice := []
  pendingChunks : List PendingChunk := []
  pendingResends : List PendingResend := []
  ownProfile : Option OwnProfile := none
  issuedInvites : List IssuedInvite := []
  /-- `message_id`, `sender_id`, `processed_at`. -/
  processedMessages : List (Bytes × Bytes × Int) := []
  /-- `server_id`, `local_id`, `recorded_at`. -/
  serverMessageIds : List (Bytes × Bytes × Int) := []
  kv : List (Bytes × Bytes) := []

end ConstructCore.Store
