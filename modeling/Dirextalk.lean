import Dirextalk.Capability.Doubt
import Dirextalk.Capability.Watch
import Dirextalk.Capability.TwoLedgers
import Dirextalk.Events.Delivery
import Dirextalk.Events.Retention
import Dirextalk.Events.Wake
import Dirextalk.Events.CompletionStores
import Dirextalk.Operations.Lease
import Dirextalk.Operations.Dispatch
import Dirextalk.Members.ProjectionOrder
import Dirextalk.Members.Subjects
import Dirextalk.Content.Reactions
import Dirextalk.Content.Confluence
import Dirextalk.Content.Rooms
import Dirextalk.Content.Authors
import Dirextalk.GroupAgent.Replies
import Dirextalk.GroupAgent.Pull
import Dirextalk.Contacts.Decisions
import Dirextalk.Projector.Typed
import Dirextalk.Policy.Agreement
import Dirextalk.Portal.ReadMarkers
import Dirextalk.Capability.Delegation
import Dirextalk.Roomserver.Redactions
import Dirextalk.Sync.Gaps
import Dirextalk.Sync.LocalHides
import Dirextalk.Sync.Tokens
import Dirextalk.Roomserver.LatestState
import Dirextalk.Contacts.Blocks
import Dirextalk.Roomserver.Input
import Dirextalk.Federation.Transactions
import Dirextalk.Roomserver.MembershipAt
import Dirextalk.UserAPI.DeviceLists
import Dirextalk.Roomserver.StateLists
import Dirextalk.Operations.KeyedLocks
import Dirextalk.Client.Transactions
