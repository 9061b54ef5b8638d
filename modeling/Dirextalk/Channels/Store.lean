/-
  Dirextalk.Channels.Store — the table of channels (`p2p/storage/storage_channels.go`).

  A channel is identified by its id; which room it has is a column like the others, and
  nothing keeps two channels out of one room.
-/
import Dirextalk.Lib.Rows
import Dirextalk.Members.Record

namespace Dirextalk.Channels

open Lib Lib.Go

/-- `dirextalkdomain.Channel`, without what is not stored. -/
structure ChannelRecord where
  channelID : String
  roomID : String
  name : String
  description : String
  avatarURL : String
  visibility : String
  joinPolicy : String
  channelType : String
  commentsEnabled : Bool
  muted : Bool
  memberCount : Int
  pendingJoinCount : Int

/-- `Channel{}`. -/
def ChannelRecord.zero : ChannelRecord := ⟨"", "", "", "", "", "", "", "", false, false, 0, 0⟩

abbrev ChannelTable := Rows ChannelRecord.channelID

namespace ChannelTable

/-- `UpsertChannel`. -/
def upsertChannel (t : ChannelTable) (channel : ChannelRecord) : ChannelTable := t.put channel

def deleteChannel (t : ChannelTable) (channelID : String) : ChannelTable := t.delete (·.channelID = channelID)

def inRoom (t : ChannelTable) (roomID : String) : Option ChannelRecord :=
  if roomID = "" then none else t.rows.find? (·.roomID = roomID)

/-- `GetChannelByIDOrRoom`: a row with the id comes before one with the room. -/
def byIDOrRoom (t : ChannelTable) (channelID roomID : String) : Option ChannelRecord :=
  if channelID = "" then t.inRoom roomID else (t.find channelID).or (t.inRoom roomID)

variable {t : ChannelTable} {channelID roomID : String} {channel : ChannelRecord}

theorem mem_of_inRoom (h : t.inRoom roomID = some channel) : channel ∈ t.rows := by
  unfold inRoom at h
  split at h
  · cases h
  · exact List.mem_of_find?_eq_some h

theorem mem_of_byIDOrRoom (h : t.byIDOrRoom channelID roomID = some channel) : channel ∈ t.rows := by
  unfold byIDOrRoom at h
  split at h
  · exact mem_of_inRoom h
  · obtain hfind | ⟨-, hroom⟩ := Option.or_eq_some_iff.mp h
    · exact (t.find_eq_some.mp hfind).1
    · exact mem_of_inRoom hroom

end ChannelTable

end Dirextalk.Channels
