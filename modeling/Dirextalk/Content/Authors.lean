/-
  Dirextalk.Content.Authors — who can change a post or a comment (`content_belongs_to_author`).

  Rows are keyed by ids that events choose themselves, and a redaction looks its id up among
  the ids of rows as well. The origin of a row, ghost state fixed when the row appears, is
  the sender and the room of the event it came from. As long as every event whose row id is
  taken has the origin of that row, and no redaction or recall names the id of a row it is
  not about, rows keep to their authors.
-/
import Dirextalk.Lib.Run
import Dirextalk.Content.Settings

namespace Dirextalk.Content

open Lib Lib.Go Dirextalk.Action

variable {b : Backend}

structure Origin where
  sender : String
  roomID : String
  deriving DecidableEq, Repr

def Event.origin (e : Event) : Origin := ⟨e.sender, e.roomID⟩

/-- A projected event, or a recall by the owner (`Recall`), which deletes what it finds by its id. -/
inductive Move where
  | deliver (d : Delivery)
  | recallPost (postID channelID : String)
  | recallComment (commentID postID : String)

section

variable (agentRoomID : String)

def Move.message : Move → Option Event
  | .deliver d => d.message agentRoomID
  | _ => none

def Move.apply : Move → Tables b → Tables b
  | .deliver d, t => d.apply agentRoomID t
  | .recallPost postID channelID, t => if (t.getChannelPostByID postID channelID).isSome then t.deleteChannelPost postID else t
  | .recallComment commentID postID, t =>
    if (t.getChannelCommentByID commentID postID).isSome then t.deleteChannelComment commentID else t

structure World (b : Backend) where
  tables : Tables b
  postOrigin : String → Option Origin
  commentOrigin : String → Option Origin

def World.init (b : Backend) : World b := ⟨Tables.empty b, fun _ => none, fun _ => none⟩

/-- The origin of a row after a step: a row that stays keeps it, a new one has that of the event. -/
def originAfter {α : Type} (row : Option α) (old new : Option Origin) : Option Origin :=
  if row.isSome then old <|> new else none

def World.step (m : Move) (w : World b) : World b where
  tables := m.apply agentRoomID w.tables
  postOrigin id :=
    originAfter ((m.apply agentRoomID w.tables).posts.find id) (w.postOrigin id) ((m.message agentRoomID).map Event.origin)
  commentOrigin id :=
    originAfter ((m.apply agentRoomID w.tables).comments.find id) (w.commentOrigin id) ((m.message agentRoomID).map Event.origin)

def Move.ByAuthor (m : Move) (origin : Option Origin) : Prop :=
  ∃ v, m.message agentRoomID = some v ∧ origin = some v.origin

structure Respects (w : World b) (m : Move) : Prop where
  posts : ∀ id row, w.tables.posts.find id = some row →
    (∃ row', (w.step agentRoomID m).tables.posts.find id = some row' ∧
      (row'.written = row.written ∨ m.ByAuthor agentRoomID (w.postOrigin id))) ∨
    (w.step agentRoomID m).tables.posts.find id = none ∧
      (m = .deliver (.redacted row.eventID) ∨ ∃ channelID, m = .recallPost id channelID)
  comments : ∀ id row, w.tables.comments.find id = some row →
    (∃ row', (w.step agentRoomID m).tables.comments.find id = some row' ∧
      (row' = row ∨ m.ByAuthor agentRoomID (w.commentOrigin id))) ∨
    (w.step agentRoomID m).tables.comments.find id = none ∧
      (m = .deliver (.redacted row.eventID) ∨ ∃ postID, m = .recallComment id postID)

structure Proper (w : World b) (m : Move) : Prop where
  post : ∀ v, m.message agentRoomID = some v → v.content.string "p2p_kind" = "channel_post" →
    ∀ o, w.postOrigin v.projection.post.postID = some o → o = v.origin
  comment : ∀ v, m.message agentRoomID = some v → v.content.string "p2p_kind" = "channel_comment" →
    ∀ o, w.commentOrigin v.projection.comment.commentID = some o → o = v.origin
  redaction : ∀ i, m = .deliver (.redacted i) →
    (∀ row, w.tables.posts.find i = some row → row.eventID = i) ∧ ∀ row, w.tables.comments.find i = some row → row.eventID = i
  recallPost : ∀ i channelID, m = .recallPost i channelID → ∀ id row, w.tables.posts.find id = some row → row.eventID = i → id = i
  recallComment :
    ∀ i postID, m = .recallComment i postID → ∀ id row, w.tables.comments.find id = some row → row.eventID = i → id = i

end

structure Originated (w : World b) : Prop where
  posts : ∀ id row, w.tables.posts.find id = some row → w.postOrigin id = some ⟨row.authorMXID, row.roomID⟩
  comments : ∀ id row, w.tables.comments.find id = some row → ∃ o, w.commentOrigin id = some o ∧ o.sender = row.authorMXID

/-! ## One step -/

inductive RowEffect {α : Type} (same : α → α → Prop) (puts : α → Prop) (named : String → α → Bool) (removes : String → Prop)
    (before after : Option α) : Prop
  | kept (h : after = before)
  | changed (row row' : α) (hbefore : before = some row) (hafter : after = some row') (h : same row' row)
  | put (row : α) (h : after = some row) (hputs : puts row)
  | removed (i : String) (hremoves : removes i) (h : after = before.filter (!named i ·))

variable {w : World b} {id agentRoomID : String} {m : Move}

theorem post_effect (agentRoomID : String) (w : World b) (m : Move) (id : String) :
    RowEffect (fun row' row : Post => row'.written = row.written)
      (fun row => ∃ v, m.message agentRoomID = some v ∧ v.content.string "p2p_kind" = "channel_post" ∧
        v.projection.post.postID = id ∧ row.written = v.projection.post.written)
      (fun i row => row.postID = i || row.eventID = i)
        (fun i => m = .deliver (.redacted i) ∨ ∃ channelID, m = .recallPost i channelID)
      (w.tables.posts.find id) ((m.apply agentRoomID w.tables).posts.find id) := by
  cases m with
  | recallComment i postID =>
    refine .kept ?_
    simp only [Move.apply]
    split <;> rfl
  | recallPost i channelID =>
    simp only [Move.apply]
    split
    · exact .removed i (.inr ⟨channelID, rfl⟩) (Rows.find_delete ..)
    · exact .kept rfl
  | deliver d =>
    rw [Move.apply]
    obtain ⟨v, hv, hkind, h⟩ | ⟨v, hv, hkind, h⟩ | ⟨i, rfl, h⟩ | ⟨s, h⟩ | ⟨hposts, -⟩ := d.effect agentRoomID w.tables
    · rw [h, find_insertChannelPost]
      split
      · rename_i hid
        exact .put _ rfl ⟨v, hv, hkind, hid, insertedPost_written ..⟩
      · exact .kept rfl
    · exact .kept (by rw [h, (projectComment_posts _ _).1])
    · rw [h, find_removeProjectedEvent_posts]
      cases blank i with
      | true => exact .kept (by cases w.tables.posts.find id <;> rfl)
      | false => exact .removed i (.inl rfl) rfl
    · rw [h]
      cases hstored : (w.tables.applyChannelPostSettings s).posts.find id with
      | none =>
        have hsome : ((w.tables.applyChannelPostSettings s).posts.find id).isSome = (w.tables.posts.find id).isSome :=
          appliedPosts_stored ..
        rw [hstored] at hsome
        exact .kept (Option.not_isSome_iff_eq_none.mp (by simp [← hsome])).symm
      | some row' =>
        obtain ⟨o, ho, hcase⟩ := find_applied_posts hstored
        refine .changed o row' ho rfl ?_
        rcases hcase with rfl | ⟨r, -, -, rfl⟩ <;> rfl
    · exact .kept (by rw [hposts])

theorem comment_effect (agentRoomID : String) (w : World b) (m : Move) (id : String) :
    RowEffect (fun row' row : Comment => row' = row)
      (fun row => ∃ v, m.message agentRoomID = some v ∧ v.content.string "p2p_kind" = "channel_comment" ∧
        v.projection.comment.commentID = id ∧ row = v.projection.comment)
      (fun i row => row.commentID = i || row.eventID = i)
        (fun i => m = .deliver (.redacted i) ∨ ∃ postID, m = .recallComment i postID)
      (w.tables.comments.find id) ((m.apply agentRoomID w.tables).comments.find id) := by
  cases m with
  | recallPost i channelID =>
    refine .kept ?_
    simp only [Move.apply]
    split <;> rfl
  | recallComment i postID =>
    simp only [Move.apply]
    split
    · exact .removed i (.inr ⟨postID, rfl⟩) (Rows.find_delete ..)
    · exact .kept rfl
  | deliver d =>
    rw [Move.apply]
    obtain ⟨v, hv, hkind, h⟩ | ⟨v, hv, hkind, h⟩ | ⟨i, rfl, h⟩ | ⟨s, h⟩ | ⟨-, hcomments⟩ := d.effect agentRoomID w.tables
    · exact .kept (by rw [h]; rfl)
    · rw [h, projectComment]
      split
      · exact .kept rfl
      · rw [find_insertChannelComment]
        split
        · rename_i hid
          exact .put _ rfl ⟨v, hv, hkind, hid, rfl⟩
        · exact .kept rfl
    · rw [h, find_removeProjectedEvent_comments]
      cases blank i with
      | true => exact .kept (by cases w.tables.comments.find id <;> rfl)
      | false => exact .removed i (.inl rfl) rfl
    · exact .kept (by rw [h]; rfl)
    · exact .kept (by rw [hcomments])

section RowEffect

variable {α : Type} {same : α → α → Prop} {puts : α → Prop} {named : String → α → Bool} {removes : String → Prop}
  {before after : Option α} (h : RowEffect same puts named removes before after) (hrefl : ∀ row, same row row)
include h hrefl

/-- What becomes of a row that is there. -/
theorem RowEffect.fate (hbefore : before = some row) :
    (∃ row', after = some row' ∧ (same row' row ∨ puts row')) ∨ after = none ∧ ∃ i, removes i ∧ named i row = true := by
  subst hbefore
  obtain h | ⟨_, row', ⟨⟩, h, hsame⟩ | ⟨row', h, hputs⟩ | ⟨i, hremoves, h⟩ := h
  · exact .inl ⟨row, h, .inl (hrefl row)⟩
  · exact .inl ⟨row', h, .inl hsame⟩
  · exact .inl ⟨row', h, .inr hputs⟩
  · rw [Option.filter_some] at h
    cases hnamed : named i row with
    | true => exact .inr ⟨by simpa [hnamed] using h, i, hremoves, hnamed⟩
    | false => exact .inl ⟨row, by simpa [hnamed] using h, .inl (hrefl row)⟩

/-- The owner of a row after a step, if rows that are put over another one have its owner. -/
theorem RowEffect.owned (owned : α → Origin → Prop) {old new : Option Origin} (hafter : after = some row)
    (hnone : before = none → old = none) (hold : ∀ row, before = some row → ∃ o, old = some o ∧ owned row o)
    (hsame : ∀ row row' o, same row' row → owned row o → owned row' o)
    (hputs : ∀ row, puts row → ∃ o, new = some o ∧ owned row o ∧ ∀ o', old = some o' → o' = o) :
    ∃ o, originAfter after old new = some o ∧ owned row o := by
  subst hafter
  cases hbefore : before with
  | none =>
    rw [hbefore] at h
    obtain ⟨⟨⟩⟩ | ⟨_, _, ⟨⟩, _⟩ | ⟨_, ⟨⟩, hput⟩ | ⟨_, _, ⟨⟩⟩ := h
    obtain ⟨o, rfl, howned, -⟩ := hputs row hput
    exact ⟨o, by simp [originAfter, hnone hbefore], howned⟩
  | some before =>
    obtain ⟨o, ho, howned⟩ := hold before hbefore
    refine ⟨o, by simp [originAfter, ho], ?_⟩
    obtain ⟨_, ⟨⟩, hrow | hput⟩ | ⟨⟨⟩, -⟩ := h.fate hrefl hbefore
    · exact hsame before row o hrow howned
    · obtain ⟨o', -, howned', hown⟩ := hputs row hput
      exact hown o ho ▸ howned'

end RowEffect

theorem Proper.respects (hinv : Originated w) (h : Proper agentRoomID w m) : Respects agentRoomID w m where
  posts := by
    intro id row hrow
    obtain ⟨row', hrow', hwritten | ⟨v, hv, hkind, hid, -⟩⟩ | ⟨hnone, i, rfl | ⟨channelID, rfl⟩, hnamed⟩ :=
      (post_effect agentRoomID w m id).fate (fun _ => rfl) hrow
    · exact .inl ⟨row', hrow', .inl hwritten⟩
    · have horigin := hinv.posts id row hrow
      refine .inl ⟨row', hrow', .inr ⟨v, hv, ?_⟩⟩
      rw [horigin, h.post v hv hkind ⟨row.authorMXID, row.roomID⟩ (by rw [hid, horigin])]
    all_goals
      rw [Rows.key_of_find hrow, Bool.or_eq_true, decide_eq_true_eq, decide_eq_true_eq] at hnamed
      refine .inr ⟨hnone, ?_⟩
    · obtain rfl | rfl := hnamed
      · exact .inl (by rw [(h.redaction id rfl).1 row hrow])
      · exact .inl rfl
    · obtain rfl | hevent := hnamed
      · exact .inr ⟨channelID, rfl⟩
      · exact .inr ⟨channelID, by rw [h.recallPost i channelID rfl id row hrow hevent]⟩
  comments := by
    intro id row hrow
    obtain ⟨row', hrow', hsame | ⟨v, hv, hkind, hid, -⟩⟩ | ⟨hnone, i, rfl | ⟨postID, rfl⟩, hnamed⟩ :=
      (comment_effect agentRoomID w m id).fate (fun _ => rfl) hrow
    · exact .inl ⟨row', hrow', .inl hsame⟩
    · obtain ⟨o, horigin, -⟩ := hinv.comments id row hrow
      refine .inl ⟨row', hrow', .inr ⟨v, hv, ?_⟩⟩
      rw [horigin, h.comment v hv hkind o (by rw [hid, horigin])]
    all_goals
      rw [Rows.key_of_find hrow, Bool.or_eq_true, decide_eq_true_eq, decide_eq_true_eq] at hnamed
      refine .inr ⟨hnone, ?_⟩
    · obtain rfl | rfl := hnamed
      · exact .inl (by rw [(h.redaction id rfl).2 row hrow])
      · exact .inl rfl
    · obtain rfl | hevent := hnamed
      · exact .inr ⟨postID, rfl⟩
      · exact .inr ⟨postID, by rw [h.recallComment i postID rfl id row hrow hevent]⟩

structure Forgotten (w : World b) : Prop where
  posts : ∀ id, w.tables.posts.find id = none → w.postOrigin id = none
  comments : ∀ id, w.tables.comments.find id = none → w.commentOrigin id = none

theorem originAfter_of_none {old new : Option Origin} (h : row = none) : originAfter row old new = none := by rw [h]; rfl

theorem forgotten_step (agentRoomID : String) (w : World b) (m : Move) : Forgotten (w.step agentRoomID m) where
  posts _ hnone := originAfter_of_none hnone
  comments _ hnone := originAfter_of_none hnone

theorem Originated.step (hinv : Originated w) (hforgotten : Forgotten w)
    (h : Proper agentRoomID w m) : Originated (w.step agentRoomID m) where
  posts := by
    intro id row hrow
    suffices howned : ∃ o, (w.step agentRoomID m).postOrigin id = some o ∧ o = ⟨row.authorMXID, row.roomID⟩ by
      obtain ⟨_, horigin, rfl⟩ := howned
      exact horigin
    refine (post_effect agentRoomID w m id).owned (fun _ => rfl) (fun row o => o = ⟨row.authorMXID, row.roomID⟩) hrow
      (hforgotten.posts id) (fun row hrow => ⟨_, hinv.posts id row hrow, rfl⟩) ?_ ?_
    · intro row row' o hwritten ho
      obtain ⟨-, -, hroom, hauthor⟩ := written_eq hwritten
      rw [ho, hroom, hauthor]
    · rintro row ⟨v, hv, hkind, hid, hwritten⟩
      obtain ⟨-, -, hroom, hauthor⟩ := written_eq hwritten
      refine ⟨v.origin, by rw [hv]; rfl, ?_, fun o ho => h.post v hv hkind o (hid ▸ ho)⟩
      rw [hroom, hauthor]
      rfl
  comments := by
    intro id row hrow
    refine (comment_effect agentRoomID w m id).owned (fun _ => rfl) (fun row o => o.sender = row.authorMXID) hrow
      (hforgotten.comments id) (hinv.comments id) (fun row row' o hsame ho => by rw [hsame, ho]) ?_
    rintro row ⟨v, hv, hkind, hid, hrow⟩
    refine ⟨v.origin, by rw [hv]; rfl, ?_, fun o ho => h.comment v hv hkind o (hid ▸ ho)⟩
    rw [hrow]
    rfl

/-! ## Runs -/

def ProperStep (agentRoomID : String) (w : World b) (m : Move) (w' : World b) : Prop :=
  w' = w.step agentRoomID m ∧ Proper agentRoomID w m

/-- In every run of proper steps, stored posts and comments are changed only as their authors do and removed only by
redactions of their own events and recalls; the stored author and room of a post are those of the event it first came
from. -/
theorem content_belongs_to_author (agentRoomID : String) {moves : List Move} {w : World b}
    (hrun : Run (ProperStep agentRoomID) (World.init b) moves w) :
    (∀ id row, w.tables.posts.find id = some row → w.postOrigin id = some ⟨row.authorMXID, row.roomID⟩) ∧
      (∀ id row, w.tables.comments.find id = some row → ∃ o, w.commentOrigin id = some o ∧ o.sender = row.authorMXID) ∧
      ∀ m, Proper agentRoomID w m → Respects agentRoomID w m := by
  have hinv : Originated w ∧ Forgotten w := by
    apply hrun.inv (I := fun w => Originated w ∧ Forgotten w)
    · rintro w m w' ⟨horigin, hforgotten⟩ ⟨rfl, hproper⟩
      exact ⟨horigin.step hforgotten hproper, forgotten_step agentRoomID w m⟩
    · refine ⟨⟨?_, ?_⟩, ⟨fun _ _ => rfl, fun _ _ => rfl⟩⟩
      · intro id row hrow
        cases hrow
      · intro id row hrow
        cases hrow
  exact ⟨hinv.1.posts, hinv.1.comments, fun m hproper => hproper.respects hinv.1⟩

namespace Sample

def edit : Event :=
  message "$edit" "@alice" [("p2p_kind", .string "channel_post"), ("post_id", .string "p1"), ("body", .string "bye")]

def posted : World .postgres := (World.init .postgres).step "!agent" (.deliver (.live post 0))

theorem proper_post : Proper "!agent" (.init .postgres) (.deliver (.live post 0)) :=
  ⟨nofun, nofun, nofun, nofun, nofun⟩

theorem proper_edit : Proper "!agent" posted (.deliver (.live edit 0)) := by
  refine ⟨fun v hv _ o ho => ?_, fun v hv hkind => ?_, nofun, nofun, nofun⟩
  · cases hv
    have horigin : posted.postOrigin edit.projection.post.postID = some edit.origin := by decide
    exact Option.some.inj (ho.symm.trans horigin)
  · cases hv
    exact absurd hkind (by decide)

end Sample

open Sample in
/-- The author posts, and edits the post. -/
theorem content_belongs_to_author_edited :
    ∃ w row, Run (ProperStep "!agent") (.init .postgres) [.deliver (.live post 0), .deliver (.live edit 0)] w ∧
    w.tables.posts.find "p1" = some row ∧ row.body = "bye" ∧ w.postOrigin "p1" = some ⟨row.authorMXID, row.roomID⟩ ∧
    Respects "!agent" posted (.deliver (.live edit 0)) := by
  have hposted : Run (ProperStep "!agent") (.init .postgres) [.deliver (.live post 0)] posted := .single ⟨rfl, proper_post⟩
  have hedited : Run (ProperStep "!agent") (.init .postgres) [.deliver (.live post 0), .deliver (.live edit 0)]
      (posted.step "!agent" (.deliver (.live edit 0))) := .snoc hposted ⟨rfl, proper_edit⟩
  refine ⟨_, _, hedited, rfl, by decide, (content_belongs_to_author "!agent" hedited).1 "p1" _ rfl, ?_⟩
  exact (content_belongs_to_author "!agent" hposted).2.2 _ proper_edit

open Sample in
/-- An event of another sender in another room that names the post's id takes the post over. -/
theorem post_taken_over :
    ((deliver "!agent" [.live post 0] (Tables.empty .postgres)).posts.find "p1").map (fun r => (r.authorMXID, r.roomID, r.body)) =
        some ("@alice", "!room", "hello") ∧
      ((deliver "!agent" [.live post 0, .live { message "$evil" "@mallory"
          [("p2p_kind", .string "channel_post"), ("post_id", .string "p1"), ("body", .string "spam")] with roomID := "!evil" } 0]
        (.empty .postgres)).posts.find "p1").map (fun r => (r.authorMXID, r.roomID, r.body)) =
        some ("@mallory", "!evil", "spam") := by
  decide

end Dirextalk.Content
