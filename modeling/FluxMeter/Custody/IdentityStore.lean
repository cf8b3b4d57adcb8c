import FluxMeter.Collections.Grouping
import FluxMeter.Collections.Table
import FluxMeter.Custody.Identity
import FluxMeter.Custody.Payload

/-! The identity store of Custody: hash buckets of entries with their expiry sets, the scripts that
run on one bucket, and the pipelines that run them for many identities of a tenant. -/
namespace FluxMeter.Custody
open Collections

structure IdentitySettings where
  ttlSeconds : ℤ := 30 * 24 * 60 * 60
  pendingTtlSeconds : ℤ := 120
  uncertainTtlSeconds : ℤ := 600
  shards : ℕ := 8
  cleanupLimit : ℕ := 64
  finalizeRetries : ℕ := 3
  ttl_pos : 0 < ttlSeconds := by decide
  pending_pos : 0 < pendingTtlSeconds := by decide
  uncertain_pos : 0 < uncertainTtlSeconds := by decide

def IdentitySettings.defaults : IdentitySettings := {}

/-- A field of the buckets `ingest:id:…` and `ingest:id-expiry:…`. -/
structure Location where
  bucket : String
  field : String
  deriving DecidableEq

def stateKey (bucket : String) : String := "ingest:id:" ++ bucket

def expiryKey (bucket : String) : String := "ingest:id-expiry:" ++ bucket

/-- `int(text, 16)` of hexadecimal digits. -/
def hexValue (text : String) : ℕ :=
  text.toList.foldl (fun n c => 16 * n + if c.isDigit then c.toNat - 48 else c.toNat - 87) 0

/-- Two hexadecimal digits, or more for a larger number. -/
def hexByte (n : ℕ) : String :=
  let digits := Nat.toDigits 16 n
  String.ofList (List.replicate (2 - digits.length) '0' ++ digits)

/-- `_identity_location`. -/
def identityLocation (py : Python) (S : IdentitySettings) (tenantId : Option String)
    (eventId : String) : Location :=
  let tenantTag := String.ofList ((py.sha256 (tenantOrDefault tenantId)).toList.take 16)
  let eventDigest := py.sha256 eventId
  let shard := hexByte (hexValue (String.ofList (eventDigest.toList.take 8)) % S.shards)
  { bucket := "\x7b" ++ tenantTag ++ "\x7d:" ++ shard, field := eventDigest }

/-- The hashes and sorted sets of Redis, by key. -/
structure IdentityStore where
  hashes : String → Table String String
  zsets : String → Table String ℤ

/-- An identity of a batch: its place there, its location and the fingerprint of its payload. -/
structure Member where
  index : ℕ
  location : Location
  fingerprint : String

/-- Whether a pipeline comes back, or raises after the scripts of some buckets have run. -/
inductive Reply
  | ok
  | raised (executed : String → Bool)

namespace IdentityStore

def empty : IdentityStore := ⟨fun _ => Table.empty, fun _ => Table.empty⟩

/-- `HDEL` and `ZREM`. -/
def drop (s : IdentityStore) (l : Location) : IdentityStore where
  hashes := Function.update s.hashes (stateKey l.bucket)
    ((s.hashes (stateKey l.bucket)).erase l.field)
  zsets := Function.update s.zsets (expiryKey l.bucket)
    ((s.zsets (expiryKey l.bucket)).erase l.field)

/-- `HSET` and `ZADD`. -/
def put (s : IdentityStore) (l : Location) (value : String) (expiry : ℤ) : IdentityStore where
  hashes := Function.update s.hashes (stateKey l.bucket)
    ((s.hashes (stateKey l.bucket)).set l.field value)
  zsets := Function.update s.zsets (expiryKey l.bucket)
    ((s.zsets (expiryKey l.bucket)).set l.field expiry)

/-- `HGET`. -/
def current (s : IdentityStore) (l : Location) : Option String :=
  (s.hashes (stateKey l.bucket)).get l.field

/-- `ZSCORE`. -/
def expiry (s : IdentityStore) (l : Location) : Option ℤ :=
  (s.zsets (expiryKey l.bucket)).get l.field

def expired (s : IdentityStore) (now : ℤ) (l : Location) : Bool :=
  match s.expiry l with
  | some score => score ≤ now
  | none => false

/-- Run an operation for every item in order and collect its results. -/
def each {μ γ : Type*} (op : μ → IdentityStore → IdentityStore × γ) :
    List μ → IdentityStore → IdentityStore × List γ
  | [], s => (s, [])
  | m :: ms, s =>
    let r := op m s
    let rest := each op ms r.1
    (rest.1, r.2 :: rest.2)

/-! ### The scripts -/

/-- The expired fields that a claim removes first. -/
def cleanup (S : IdentitySettings) (now : ℤ) (bucket : String) (s : IdentityStore) :
    IdentityStore :=
  ((s.zsets (expiryKey bucket)).rangeByScore (· ≤ now) S.cleanupLimit).foldl
    (fun s field => s.drop ⟨bucket, field⟩) s

def claimMember (now pendingExpiry : ℤ) (m : Member) (s : IdentityStore) :
    IdentityStore × Claim :=
  let stale := (s.current m.location).isSome && s.expired now m.location
  let s' := if stale then s.drop m.location else s
  match if stale then none else s.current m.location with
  | none =>
    (s'.put m.location (entryText .pending m.fingerprint) pendingExpiry, .owner)
  | some value => (s', claimAnswer (some value) m.fingerprint)

/-- `CLAIM_EVENT_IDS_SCRIPT`. -/
def claimScript (S : IdentitySettings) (now : ℤ) (g : String × List Member) (s : IdentityStore) :
    IdentityStore × List Claim :=
  each (claimMember now (now + S.pendingTtlSeconds)) g.2 (cleanup S now g.1 s)

def transitionMember (target : Phase) (expiry : ℤ) (m : Member) (s : IdentityStore) :
    IdentityStore × ℕ :=
  if transitionAllowed target m.fingerprint (s.current m.location) then
    (s.put m.location (entryText target m.fingerprint) expiry, 1)
  else if s.current m.location = some (entryText target m.fingerprint) then (s, 1)
  else (s, 0)

/-- `TRANSITION_EVENT_IDS_SCRIPT`. -/
def transitionScript (target : Phase) (expiry : ℤ) (g : String × List Member) (s : IdentityStore) :
    IdentityStore × ℕ :=
  let r := each (transitionMember target expiry) g.2 s
  (r.1, r.2.sum)

def releaseMember (m : Member) (s : IdentityStore) : IdentityStore × ℕ :=
  if releaseAllowed m.fingerprint (s.current m.location) then (s.drop m.location, 1) else (s, 0)

/-- `RELEASE_EVENT_IDS_SCRIPT`. -/
def releaseScript (g : String × List Member) (s : IdentityStore) : IdentityStore × ℕ :=
  let r := each releaseMember g.2 s
  (r.1, r.2.sum)

end IdentityStore

/-! ### The calls of Custody -/

/-- What the calls for one tenant depend on. -/
structure IdentityContext where
  py : Python
  settings : IdentitySettings
  tenantId : Option String

namespace IdentityContext
open IdentityStore

def locate (C : IdentityContext) (eventId : String) : Location :=
  identityLocation C.py C.settings C.tenantId eventId

def members (C : IdentityContext) (identities : List (String × String)) : List Member :=
  identities.zipIdx.map fun p =>
    { index := p.2, location := C.locate p.1.1, fingerprint := p.1.2 }

/-- `_group_identities`. -/
def groupIdentities (C : IdentityContext) (identities : List (String × String)) :
    List (String × List Member) :=
  groupsOf (fun m : Member => m.location.bucket) (C.members identities)

/-- `event_identity_status_batch`; a place without an answer would be taken for an owner. -/
def eventIdentityStatusBatch (C : IdentityContext) (now : ℤ) (identities : List (String × String))
    (s : IdentityStore) : IdentityStore × List Claim :=
  let grouped := C.groupIdentities identities
  let r := each (claimScript C.settings now) grouped s
  let states := (grouped.zip r.2).flatMap fun p => (p.1.2.map Member.index).zip p.2
  (r.1, (List.range identities.length).map fun i => (states.lookup i).getD .owner)

/-- The seconds that an entry of the target phase lives. -/
def targetTtl (C : IdentityContext) : Phase → ℤ
  | .accepted => C.settings.ttlSeconds
  | _ => C.settings.uncertainTtlSeconds

/-- `_transition_event_identities` of a target, as far as it runs. -/
def transitionEventIdentities (C : IdentityContext) (target : Phase) (now : ℤ) (reply : Reply)
    (identities : List (String × String)) (s : IdentityStore) : IdentityStore × Option ℕ :=
  if identities = [] then (s, some 0)
  else
    let script := transitionScript target (now + C.targetTtl target)
    match reply with
    | .ok =>
      let r := each script (C.groupIdentities identities) s
      (r.1, some r.2.sum)
    | .raised executed =>
      ((each script ((C.groupIdentities identities).filter fun g => executed g.1) s).1, none)

/-- The tries that are left in `remember_event_identities`, from the one with number `attempt`;
each reads the clock and has its own reply. -/
def rememberFrom (C : IdentityContext) (clock : ℕ → ℤ) (replies : ℕ → Reply)
    (identities : List (String × String)) : ℕ → ℕ → IdentityStore → IdentityStore × Bool
  | _, 0, s => (s, false)
  | attempt, tries + 1, s =>
    match C.transitionEventIdentities .accepted (clock attempt) (replies attempt) identities s with
    | (s', some changed) => (s', changed = identities.length)
    | (s', none) => rememberFrom C clock replies identities (attempt + 1) tries s'

/-- `remember_event_identities`. -/
def rememberEventIdentities (C : IdentityContext) (clock : ℕ → ℤ) (replies : ℕ → Reply)
    (identities : List (String × String)) (s : IdentityStore) : IdentityStore × Bool :=
  C.rememberFrom clock replies identities 0 C.settings.finalizeRetries s

/-- `mark_event_identities_uncertain`, which ignores a failure. -/
def markEventIdentitiesUncertain (C : IdentityContext) (now : ℤ) (reply : Reply)
    (identities : List (String × String)) (s : IdentityStore) : IdentityStore :=
  (C.transitionEventIdentities .uncertain now reply identities s).1

/-- `release_event_identities`. -/
def releaseEventIdentities (C : IdentityContext) (identities : List (String × String))
    (s : IdentityStore) : IdentityStore :=
  (each releaseScript (C.groupIdentities identities) s).1

end IdentityContext

end FluxMeter.Custody
