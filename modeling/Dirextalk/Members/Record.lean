/-
  Dirextalk.Members.Record — the member rows of rooms and channels
  (`internal/dirextalkdomain/types.go`) and what the code reads off a membership.
-/
import Dirextalk.Lib.Go

namespace Dirextalk.Members

open Lib.Go

structure MemberRecord where
  roomID : String
  channelID : String
  userID : String
  displayName : String
  avatarURL : String
  domain : String
  membership : String
  role : String
  muted : Bool
  joinedAt : Int
  requesterNodeBaseURL : String
  requestID : String
  deriving DecidableEq, Repr

/-- `memberRecord{}`. -/
def MemberRecord.zero : MemberRecord := ⟨"", "", "", "", "", "", "", "", false, 0, "", ""⟩

/-- A channel, as far as membership depends on it. -/
structure Channel where
  channelID : String
  roomID : String
  visibility : String
  joinPolicy : String

/-- A contact, as far as operations depend on it. -/
structure Contact where
  peerMXID : String
  roomID : String
  status : String
  requestID : String

/-- What the service reads of the rows. -/
inductive ReadCall where
  | now
  | channelByIDOrRoom (channelID roomID : String)
  | lookupMember (roomID userID : String)
  | contactByRoom (roomID : String)
  | contactByPeer (peerMXID : String)

/-- The clock in milliseconds; a row, if there is one, or the error of the store. -/
def ReadCall.Ans : ReadCall → Type
  | .now => Int
  | .channelByIDOrRoom _ _ => Except String (Option Channel)
  | .lookupMember _ _ => Except String (Option MemberRecord)
  | .contactByRoom _ | .contactByPeer _ => Except String (Option Contact)

/-- `strings.ToLower(strings.TrimSpace(s))`. -/
def lowerTrim (s : String) : String := toLower (trimSpace s)

section

variable (membership : String)

def normalizeMemberMembership : String :=
  if lowerTrim membership = "joined" then "join" else lowerTrim membership

@[simp] theorem lowerTrim_lowerTrim (s : String) : lowerTrim (lowerTrim s) = lowerTrim s := by
  unfold lowerTrim
  rw [trimSpace_toLower, trimSpace_trimSpace, toLower_toLower]

/-- A stored membership is lower case and trimmed. -/
theorem lowerTrim_normalizeMemberMembership :
    lowerTrim (normalizeMemberMembership membership) = normalizeMemberMembership membership := by
  unfold normalizeMemberMembership
  split
  · decide
  · exact lowerTrim_lowerTrim membership

@[simp] theorem normalizeMemberMembership_idem :
    normalizeMemberMembership (normalizeMemberMembership membership) = normalizeMemberMembership membership := by
  unfold normalizeMemberMembership
  split
  · decide
  · rename_i h
    rw [lowerTrim_lowerTrim, if_neg h]

/-- `channelJoinGenerationMayRestart`: a request generation that is over. -/
def channelJoinGenerationMayRestart : Bool :=
  lowerTrim membership ∈ ["reject", "rejected", "leave", "left"]

def memberRemoved : Bool :=
  lowerTrim membership ∈ ["remove", "removed", "ban", "banned"]

def memberLeft : Bool := lowerTrim membership ∈ ["leave", "left"]

def memberHidden : Bool :=
  lowerTrim membership ∈ ["leave", "left", "remove", "removed", "reject", "rejected", "ban", "banned"]

def memberMembershipJoined : Bool := equalFold (trimSpace membership) "join"

end

def productOwnerRole (role : String) : Bool := equalFold (trimSpace role) "owner"

def normalizeProductMemberRole (role : String) : String := if productOwnerRole role then "owner" else "member"

/-- The server name of a Matrix user id. -/
def domainFromMXID (mxid : String) : String := ((cut (trimPrefix mxid "@") ":").map (·.2)).getD ""

/-- The local part of a Matrix user id. -/
def displayNameFromMXID (mxid : String) : String :=
  let localpart := ((cut (trimPrefix mxid "@") ":").map (·.1)).getD (trimPrefix mxid "@")
  if trimSpace localpart ≠ "" then trimSpace localpart else mxid

-- texts are compared, not computed with, in everything that follows
attribute [irreducible] lowerTrim normalizeMemberMembership

end Dirextalk.Members
