import AeronReplay.Publisher.RecordingController

set_option autoImplicit false

/-! # Starting a recording, call by call

`startRecording` makes up to four calls to the archive; its consumers write the members while a
listing is under way, and each call may throw or show nothing. `startRecordingWith` follows the
calls for any answers of the archive, and `changesNothing_iff` says for which of them a call that
fails leaves everything as it was. `finds_iff` is about an archive that answers every call: for
which catalogs the bounded listings find the recording. -/

namespace AeronReplay

namespace RecordingController

/-! ## The answers of the archive -/

/-- What a call of `listRecordingsForUri` does: the consumer is called with some descriptors, and
then the call returns or throws. -/
structure ListReply where
  delivered : List Recording
  throws : Bool
  nonneg : ∀ r ∈ delivered, 0 ≤ r.recordingId

/-- What a call of `archive_->startRecording` does. Where it throws because no answer came in time,
the archive may have started the recording all the same. -/
inductive StartCall (a : Archive) where
  | returns (new : a.New)
  | throws (error_msg : String) (done : Option a.New)

/-- What the calls do that one `startRecording` makes. -/
structure Answers (a : Archive) where
  /-- The listing for `checkExistingRecording`. -/
  existing : ListReply
  start : StartCall a
  /-- The listing for `findAnyRecording`. -/
  any : ListReply
  /-- The first and the second listing for `recordingDescriptorConsumer`. -/
  created : ListReply
  again : ListReply

/-- The archive after a recording has been started, if one has. -/
def startedIn (c : RecordingController) (a : Archive) : Option a.New → Archive
  | none => a
  | some new => a.startRecording c.channel_ c.stream_id_ new

/-- The handler of the exceptions of `archive_->startRecording`. What it throws itself or throws
again ends in the handlers of the whole function, which return false. -/
def searchExistingWith (c : RecordingController) (a : Archive) (error_msg : String)
    (any : ListReply) : Bool × RecordingController × Archive :=
  if contains error_msg "recording exists" then
    let c := any.delivered.foldl findAnyRecording c
    if any.throws then (false, c, a)
    else if c.recording_id_ != -1 then (true, c, a)
    else (false, c, a)
  else
    (false, c, a)

/-- The end of `startRecording` after `archive_->startRecording` has returned. -/
def searchStartedWith (c : RecordingController) (a : Archive) (created again : ListReply) :
    Bool × RecordingController × Archive :=
  let c := created.delivered.foldl recordingDescriptorConsumer c
  if created.throws then (false, c, a)
  else if c.recording_id_ == -1 then
    let c := again.delivered.foldl recordingDescriptorConsumer c
    if again.throws then (false, c, a)
    else if c.recording_id_ == -1 then (false, c, a)
    else (true, c, a)
  else
    (true, c, a)

def startRecordingWith (c : RecordingController) (a : Archive) (answers : Answers a) :
    Bool × RecordingController × Archive :=
  if c.isRecording then
    (false, c, a)
  else
    let c := answers.existing.delivered.foldl checkExistingRecording c
    if answers.existing.throws then (false, c, a)
    else if c.recording_id_ != -1 then
      (true, c, a)
    else
      match answers.start with
      | .throws error_msg done => c.searchExistingWith (c.startedIn a done) error_msg answers.any
      | .returns new =>
        let a := a.startRecording c.channel_ c.stream_id_ new
        let c := { c with subscription_id_ := new.subscriptionId }
        c.searchStartedWith a answers.created answers.again

/-! ## What a listing leads to -/

variable {c : RecordingController} {a : Archive}

/-- The listing shows a descriptor of the stream that passes `test`. -/
def ListReply.shows (l : ListReply) (c : RecordingController) (test : Recording → Bool) : Bool :=
  l.delivered.any fun r => r.streamId == c.stream_id_ && test r

/-- What the consumers have in common: of a descriptor they take the recording id, and they leave
the channel and the stream alone. -/
structure TakesId (use : RecordingController → Recording → RecordingController) : Prop where
  recording_id_ : ∀ c r, (use c r).recording_id_ = r.recordingId
  channel_ : ∀ c r, (use c r).channel_ = c.channel_
  stream_id_ : ∀ c r, (use c r).stream_id_ = c.stream_id_
  last : ∀ c r q, use (use c r) q = use c q

theorem takesId_setIds : TakesId setIds :=
  ⟨fun _ _ => rfl, fun _ _ => rfl, fun _ _ => rfl, fun _ _ _ => rfl⟩

theorem takesId_setRecordingId : TakesId setRecordingId :=
  ⟨fun _ _ => rfl, fun _ _ => rfl, fun _ _ => rfl, fun _ _ _ => rfl⟩

section Consumer

variable {test : Recording → Bool}
  {use : RecordingController → Recording → RecordingController} {l : ListReply}

/-- A listing that shows nothing leaves the members alone. -/
theorem foldl_of_shows_false (huse : TakesId use) (hshows : l.shows c test = false) :
    l.delivered.foldl (consumer test use) c = c := by
  have hnone : (l.delivered.filter fun r => r.streamId == c.stream_id_ && test r) = [] := by
    refine List.filter_eq_nil_iff.mpr fun r hr hpass => ?_
    exact List.any_eq_false.mp hshows r hr hpass
  rw [foldl_consumer_filter test use huse.stream_id_ huse.last, hnone, List.getLast?_nil,
    Option.elim_none]

/-- One that shows something sets the recording id. -/
theorem recording_id_of_shows (huse : TakesId use) (hshows : l.shows c test = true) :
    (l.delivered.foldl (consumer test use) c).recording_id_ ≠ -1 := by
  rw [foldl_consumer_filter test use huse.stream_id_ huse.last]
  cases hlast : (l.delivered.filter fun r => r.streamId == c.stream_id_ && test r).getLast? with
  | none =>
      obtain ⟨r, hr, hpass⟩ := List.any_eq_true.mp hshows
      exact absurd hpass (List.filter_eq_nil_iff.mp (List.getLast?_eq_none_iff.mp hlast) r hr)
  | some r =>
      have hr := l.nonneg r (List.mem_of_mem_filter (List.mem_of_getLast? hlast))
      rw [Option.elim_some, huse.recording_id_]
      intro h
      rw [h] at hr
      exact absurd hr (by decide)

/-- The listings that follow are those of the same channel and stream. -/
theorem listing_foldl (huse : TakesId use) (l : List Recording) (a : Archive) :
    (l.foldl (consumer test use) c).listing a = c.listing a := by
  rw [foldl_consumer_filter test use huse.stream_id_ huse.last]
  cases (l.filter fun r => r.streamId == c.stream_id_ && test r).getLast? with
  | none => rfl
  | some r =>
      unfold listing
      rw [Option.elim_some, huse.stream_id_, huse.channel_]

end Consumer

/-! ## An archive that answers -/

/-- A listing that shows the catalog and returns. -/
def ListReply.full (c : RecordingController) (a : Archive) : ListReply where
  delivered := c.listing a
  throws := false
  nonneg r hr := a.nonneg r (Archive.mem_of_listed hr).1

/-- The answers of an archive that can be reached throughout. -/
def Answers.full (c : RecordingController) (a : Archive) : StartReply a → Answers a
  | .started new =>
    let b := a.startRecording c.channel_ c.stream_id_ new
    ⟨.full c a, .returns new, .full c a, .full c b, .full c b⟩
  | .throws error_msg =>
    ⟨.full c a, .throws error_msg none, .full c a, .full c a, .full c a⟩

theorem searchStartedWith_full (c : RecordingController) (b : Archive) :
    c.searchStartedWith b (.full c b) (.full c b) = c.searchStarted b := by
  have hagain : ((c.listing b).foldl recordingDescriptorConsumer c).listing b = c.listing b :=
    listing_foldl takesId_setRecordingId _ b
  unfold searchStartedWith searchStarted
  dsimp only
  rw [hagain]
  rfl

/-- With such answers the call is the one of `startRecording`. -/
theorem startRecordingWith_full (c : RecordingController) (a : Archive) (reply : StartReply a) :
    c.startRecordingWith a (.full c a reply) = c.startRecording a reply := by
  have hexisting : (Answers.full c a reply).existing = .full c a := by
    cases reply <;> rfl
  unfold startRecordingWith startRecording
  rw [hexisting]
  cases c.isRecording with
  | true => rfl
  | false =>
      rw [if_neg Bool.false_ne_true, if_neg Bool.false_ne_true]
      cases hshows : (ListReply.full c a).shows c Recording.active with
      | true =>
          have hid : ((c.listing a).foldl checkExistingRecording c).recording_id_ ≠ -1 :=
            recording_id_of_shows takesId_setIds hshows
          show (if _ then _ else _) = if _ then _ else _
          rw [if_pos (bne_iff_ne.mpr hid)]
          exact if_pos (bne_iff_ne.mpr hid)
      | false =>
          have hsame : (ListReply.full c a).delivered.foldl checkExistingRecording c = c :=
            foldl_of_shows_false takesId_setIds hshows
          have hsame' : (c.listing a).foldl checkExistingRecording c = c := hsame
          rw [hsame, hsame']
          cases reply with
          | throws error_msg => rfl
          | started new =>
              have hstarted := searchStartedWith_full ({ c with
                subscription_id_ := new.subscriptionId } : RecordingController)
                (a.startRecording c.channel_ c.stream_id_ new)
              dsimp only
              rw [← hstarted]
              rfl

/-! ## A call that fails -/

/-- If the call has returned false, the ids are what they were and no recording is running that was
not running before. -/
def ChangesNothing (c : RecordingController) (a : Archive)
    (o : Bool × RecordingController × Archive) : Prop :=
  o.1 = false → o.2.1.recording_id_ = c.recording_id_ ∧
    o.2.1.subscription_id_ = c.subscription_id_ ∧
    ∀ r ∈ o.2.2.recordings, r.active = true → r ∈ a.recordings

/-- The answers to which a call either succeeds or fails before it has changed anything: a listing
that throws has shown nothing that its consumer uses, an `archive_->startRecording` that throws has
started nothing, and a recording that has been started is shown by one of the two listings
after it. -/
def FailsCleanly (c : RecordingController) (answers : Answers a) : Prop :=
  if answers.existing.throws then answers.existing.shows c Recording.active = false
  else answers.existing.shows c Recording.active = true ∨
    match answers.start with
    | .throws error_msg done =>
      if contains error_msg "recording exists" && answers.any.shows c fun _ => true then
        answers.any.throws = false
      else done = none
    | .returns _ => answers.created.throws = false ∧
      (answers.created.shows c Recording.active = true ∨
        answers.again.throws = false ∧ answers.again.shows c Recording.active = true)

theorem changesNothing_of_true {o : Bool × RecordingController × Archive} (h : o.1 = true) :
    ChangesNothing c a o := fun hfalse => by
  rw [h] at hfalse
  cases hfalse

/-- A recording that has been started is running. -/
theorem not_changesNothing_started (c' : RecordingController) (new : a.New) :
    ¬ ChangesNothing c a (false, c', a.startRecording c.channel_ c.stream_id_ new) := by
  intro h
  obtain ⟨-, -, hrunning⟩ := h rfl
  have hnew := hrunning (new.recording c.channel_ c.stream_id_)
    (List.mem_append_right _ (List.mem_singleton_self _)) (beq_self_eq_true _)
  exact new.id_fresh (List.mem_map.mpr ⟨_, hnew, rfl⟩)

theorem changesNothing_startedIn_iff (done : Option a.New) :
    ChangesNothing c a (false, c, c.startedIn a done) ↔ done = none := by
  cases done with
  | none => exact iff_of_true (fun _ => ⟨rfl, rfl, fun _ hr _ => hr⟩) rfl
  | some new => exact iff_of_false (not_changesNothing_started c new) (Option.some_ne_none new)

theorem searchExistingWith_iff (hid : c.recording_id_ = -1) (error_msg : String)
    (done : Option a.New) (any : ListReply) :
    ChangesNothing c a (c.searchExistingWith (c.startedIn a done) error_msg any) ↔
      if contains error_msg "recording exists" && any.shows c fun _ => true then
        any.throws = false
      else done = none := by
  unfold searchExistingWith
  cases contains error_msg "recording exists" with
  | false => exact changesNothing_startedIn_iff done
  | true =>
      rw [if_pos rfl, Bool.true_and]
      dsimp only
      cases hshows : any.shows c fun _ => true with
      | true =>
          have hfound : (any.delivered.foldl findAnyRecording c).recording_id_ ≠ -1 :=
            recording_id_of_shows takesId_setRecordingId hshows
          rw [if_pos (bne_iff_ne.mpr hfound)]
          cases any.throws with
          | true =>
              refine iff_of_false (fun h => ?_) (by simp)
              exact hfound ((h rfl).1.trans hid)
          | false => exact iff_of_true (changesNothing_of_true rfl) rfl
      | false =>
          have hsame : any.delivered.foldl findAnyRecording c = c :=
            foldl_of_shows_false takesId_setRecordingId hshows
          have hnone : ¬ (c.recording_id_ != -1) = true := by
            rw [hid]
            decide
          rw [hsame, if_neg hnone, ite_self]
          exact changesNothing_startedIn_iff done

/-- Whether the recording id is found after a start. -/
theorem searchStartedWith_eq_true_iff (hid : c.recording_id_ = -1) (b : Archive)
    (created again : ListReply) :
    (c.searchStartedWith b created again).1 = true ↔ created.throws = false ∧
      (created.shows c Recording.active = true ∨
        again.throws = false ∧ again.shows c Recording.active = true) := by
  unfold searchStartedWith
  dsimp only
  cases created.throws with
  | true => exact iff_of_false Bool.false_ne_true fun h => Bool.false_ne_true h.1.symm
  | false =>
      rw [if_neg Bool.false_ne_true]
      cases hshows : created.shows c Recording.active with
      | true =>
          have hfound :
              (created.delivered.foldl recordingDescriptorConsumer c).recording_id_ ≠ -1 :=
            recording_id_of_shows takesId_setRecordingId hshows
          rw [if_neg (mt beq_iff_eq.mp hfound)]
          exact iff_of_true rfl ⟨rfl, .inl rfl⟩
      | false =>
          have hsame : created.delivered.foldl recordingDescriptorConsumer c = c :=
            foldl_of_shows_false takesId_setRecordingId hshows
          rw [hsame, if_pos (beq_iff_eq.mpr hid)]
          cases again.throws with
          | true => exact iff_of_false Bool.false_ne_true (by simp)
          | false =>
              cases hagain : again.shows c Recording.active with
              | true =>
                  have hfound :
                      (again.delivered.foldl recordingDescriptorConsumer c).recording_id_ ≠ -1 :=
                    recording_id_of_shows takesId_setRecordingId hagain
                  rw [if_neg (mt beq_iff_eq.mp hfound)]
                  exact iff_of_true rfl ⟨rfl, .inr ⟨rfl, rfl⟩⟩
              | false =>
                  have hsame : again.delivered.foldl recordingDescriptorConsumer c = c :=
                    foldl_of_shows_false takesId_setRecordingId hagain
                  rw [hsame, if_pos (beq_iff_eq.mpr hid)]
                  exact iff_of_false Bool.false_ne_true (by simp)

/-- The archive keeps the recording, whatever becomes of the search. -/
theorem searchStartedWith_archive (c : RecordingController) (b : Archive)
    (created again : ListReply) : (c.searchStartedWith b created again).2.2 = b := by
  unfold searchStartedWith
  dsimp only
  split
  · rfl
  split
  · split
    · rfl
    · split <;> rfl
  · rfl

/-- A search that fails after a start leaves the recording running. -/
theorem searchStartedWith_iff (hid : c.recording_id_ = -1) (new : a.New)
    (created again : ListReply) :
    ChangesNothing c a (({ c with subscription_id_ := new.subscriptionId } :
        RecordingController).searchStartedWith (a.startRecording c.channel_ c.stream_id_ new)
          created again) ↔
      created.throws = false ∧ (created.shows c Recording.active = true ∨
        again.throws = false ∧ again.shows c Recording.active = true) := by
  have htrue := searchStartedWith_eq_true_iff
    (c := { c with subscription_id_ := new.subscriptionId }) hid
    (a.startRecording c.channel_ c.stream_id_ new) created again
  have harchive := searchStartedWith_archive { c with subscription_id_ := new.subscriptionId }
    (a.startRecording c.channel_ c.stream_id_ new) created again
  generalize ({ c with subscription_id_ := new.subscriptionId } :
    RecordingController).searchStartedWith (a.startRecording c.channel_ c.stream_id_ new)
      created again = o at htrue harchive ⊢
  obtain ⟨returned, c', b⟩ := o
  refine Iff.trans ?_ htrue
  cases returned with
  | true => exact iff_of_true (changesNothing_of_true rfl) rfl
  | false =>
      obtain rfl : b = a.startRecording c.channel_ c.stream_id_ new := harchive
      exact iff_of_false (not_changesNothing_started c' new) Bool.false_ne_true

/-- **When a `startRecording` that fails changes nothing**, for every catalog and all answers of
the archive. -/
theorem changesNothing_iff (c : RecordingController) (a : Archive) (answers : Answers a)
    (hrec : c.isRecording = false) :
    ChangesNothing c a (c.startRecordingWith a answers) ↔ FailsCleanly c answers := by
  have hid : c.recording_id_ = -1 := by simpa [isRecording] using hrec
  unfold startRecordingWith FailsCleanly
  rw [hrec, if_neg Bool.false_ne_true]
  dsimp only
  cases hshows : answers.existing.shows c Recording.active with
  | true =>
      have hfound :
          (answers.existing.delivered.foldl checkExistingRecording c).recording_id_ ≠ -1 :=
        recording_id_of_shows takesId_setIds hshows
      cases answers.existing.throws with
      | true =>
          refine iff_of_false (fun h => ?_) (by simp)
          exact hfound ((h rfl).1.trans hid)
      | false =>
          rw [if_neg Bool.false_ne_true, if_pos (bne_iff_ne.mpr hfound)]
          exact iff_of_true (changesNothing_of_true rfl) (Or.inl rfl)
  | false =>
      have hsame : answers.existing.delivered.foldl checkExistingRecording c = c :=
        foldl_of_shows_false takesId_setIds hshows
      rw [hsame]
      cases answers.existing.throws with
      | true => exact iff_of_true ((changesNothing_startedIn_iff none).mpr rfl) rfl
      | false =>
          have hnone : ¬ (c.recording_id_ != -1) = true := by
            rw [hid]
            decide
          rw [if_neg Bool.false_ne_true, if_neg hnone, if_neg Bool.false_ne_true,
            or_iff_right Bool.false_ne_true]
          cases answers.start with
          | throws error_msg done => exact searchExistingWith_iff hid error_msg done answers.any
          | returns new => exact searchStartedWith_iff hid new answers.created answers.again

/-- An archive without recordings. -/
def emptyCatalog : Archive where
  recordings := []
  channelMatches fragment channel := fragment == channel
  stopsUnknown := false
  nonneg := Archive.nonneg_nil
  ids := List.nodup_nil
  subscriptions := List.nodup_nil

/-- The listing that shows nothing. -/
def ListReply.silent : ListReply := ⟨[], false, by decide⟩

/-- The recording is started, and the listings do not show it. -/
def unseenRecording : Answers emptyCatalog :=
  ⟨.silent, .returns ⟨0, 7, 100, by decide, by decide, by decide⟩, .silent, .silent, .silent⟩

theorem changesNothing_iff_unseenRecording :
    ChangesNothing (create "aeron:udp" 10) emptyCatalog
        ((create "aeron:udp" 10).startRecordingWith emptyCatalog unseenRecording) ↔
      FailsCleanly (create "aeron:udp" 10) unseenRecording :=
  changesNothing_iff (create "aeron:udp" 10) emptyCatalog unseenRecording rfl

/-- The call fails, the subscription id has changed, and a recording is running that
`stopRecording` refuses to stop. -/
theorem unseen_recording_running :
    let c := create "aeron:udp" 10
    let o := c.startRecordingWith emptyCatalog unseenRecording
    c.isRecording = false ∧ o.1 = false ∧ c.subscription_id_ = -1 ∧
      o.2.1.subscription_id_ = 100 ∧ (∃ r ∈ o.2.2.recordings, r.active = true) ∧
      ∀ reply, o.2.1.stopRecording o.2.2 reply = (false, o.2.1, o.2.2) := by
  refine ⟨rfl, rfl, rfl, rfl, ?_, fun reply => rfl⟩
  exact ⟨_, List.mem_singleton_self _, rfl⟩

/-! ## Which catalogs the listings find the recording in -/

/-- The recordings of the controller's channel and stream. -/
def stream (c : RecordingController) (a : Archive) : List Recording :=
  a.ofStream 0 c.channel_ c.stream_id_

/-- A call finds the recording: one that is active if there is one, and otherwise the one that it
starts. -/
def Finds (c : RecordingController) (a : Archive) (reply : StartReply a) : Prop :=
  ((∃ r ∈ c.stream a, r.active = true) →
    (c.startRecording a reply).1 = true ∧ ∃ r ∈ c.stream a, r.active = true ∧
      (c.startRecording a reply).2.1.recording_id_ = r.recordingId) ∧
  ∀ new, (∀ r ∈ c.stream a, r.active = false) → reply = .started new →
    (c.startRecording a reply).1 = true ∧
      (c.startRecording a reply).2.1.recording_id_ = new.recordingId

/-- The recording that is to be found is among the first ten of the stream. -/
def WithinTen (c : RecordingController) (a : Archive) (reply : StartReply a) : Prop :=
  ((∃ r ∈ c.stream a, r.active = true) → ∃ r ∈ (c.stream a).take 10, r.active = true) ∧
  ∀ new, (∀ r ∈ c.stream a, r.active = false) → reply = .started new → (c.stream a).length < 10

/-- A new recording is listed if there is room for it. -/
theorem listed_iff (hself : a.channelMatches c.channel_ c.channel_ = true) (new : a.New) :
    new.recording c.channel_ c.stream_id_ ∈
        c.listing (a.startRecording c.channel_ c.stream_id_ new) ↔ (c.stream a).length < 10 := by
  have hshown : ([new.recording c.channel_ c.stream_id_].filter fun r =>
      (0 : Int64) ≤ r.recordingId && a.channelMatches c.channel_ r.channel &&
        r.streamId == c.stream_id_) = [new.recording c.channel_ c.stream_id_] := by
    refine List.filter_eq_self.mpr fun r hr => ?_
    obtain rfl := List.mem_singleton.mp hr
    have hnonneg := new.nonneg
    simp [Archive.New.recording, hself, hnonneg]
  have hlisting : c.listing (a.startRecording c.channel_ c.stream_id_ new)
      = (c.stream a ++ [new.recording c.channel_ c.stream_id_]).take 10 := by
    rw [listing, Archive.listRecordingsForUri, Archive.ofStream_startRecording, hshown]
    rfl
  have hfresh : new.recording c.channel_ c.stream_id_ ∉ c.stream a := fun h =>
    new.id_fresh (List.mem_map.mpr ⟨_, (List.mem_filter.mp h).1, rfl⟩)
  rw [hlisting, List.take_append]
  constructor
  · intro h
    by_contra hfull
    rw [Nat.sub_eq_zero_of_le (Nat.le_of_not_lt hfull), List.take_zero, List.append_nil] at h
    exact hfresh (List.mem_of_mem_take h)
  · intro hroom
    refine List.mem_append_right _ ?_
    rw [List.take_of_length_le (by rw [List.length_singleton]; omega)]
    exact List.mem_singleton_self _

/-- Where no active recording is listed, a start is followed by the search for its id. -/
theorem startRecording_started {new : a.New} (hrec : c.isRecording = false)
    (hnone : (c.listing a).filter Recording.active = []) :
    c.startRecording a (.started new) = ({ c with subscription_id_ := new.subscriptionId } :
      RecordingController).searchStarted (a.startRecording c.channel_ c.stream_id_ new) := by
  have hid : ¬ (c.recording_id_ != -1) = true := by
    rw [← isRecording, hrec]
    decide
  unfold startRecording
  rw [hrec, if_neg Bool.false_ne_true, foldl_checkExistingRecording, hnone, List.getLast?_nil,
    Option.elim_none]
  dsimp only
  rw [if_neg hid]

theorem startRecording_of_listed {new : a.New} (hrec : c.isRecording = false)
    (hnone : (c.listing a).filter Recording.active = [])
    (hlisted : new.recording c.channel_ c.stream_id_ ∈
      c.listing (a.startRecording c.channel_ c.stream_id_ new)) :
    (c.startRecording a (.started new)).1 = true := by
  have hid : c.recording_id_ = -1 := by simpa [isRecording] using hrec
  rw [startRecording_started hrec hnone, ← searchStartedWith_full]
  refine (searchStartedWith_eq_true_iff
    (c := { c with subscription_id_ := new.subscriptionId }) hid _ _ _).mpr
    ⟨rfl, .inl (List.any_eq_true.mpr ⟨_, hlisted, ?_⟩)⟩
  rw [Bool.and_eq_true]
  exact ⟨beq_self_eq_true _, beq_self_eq_true _⟩

/-- Where no active recording is listed, there must be none at all. -/
theorem active_within_ten_iff (hnone : (c.listing a).filter Recording.active = []) :
    ((∃ r ∈ c.stream a, r.active = true) → ∃ r ∈ (c.stream a).take 10, r.active = true) ↔
      ¬ ∃ r ∈ c.stream a, r.active = true := by
  have hten : ¬ ∃ r ∈ (c.stream a).take 10, r.active = true := by
    rintro ⟨r, hr, hactive⟩
    exact List.filter_eq_nil_iff.mp hnone r hr hactive
  constructor
  · intro h hex
    exact hten (h hex)
  · intro h hex
    exact absurd hex h

/-- **When a call finds the recording**: exactly when what it looks for is among the first ten
recordings of the stream. -/
theorem finds_iff (c : RecordingController) (a : Archive) (reply : StartReply a)
    (hrec : c.isRecording = false) (hself : a.channelMatches c.channel_ c.channel_ = true) :
    Finds c a reply ↔ WithinTen c a reply := by
  have hseen : ∀ new, (c.listing a).filter Recording.active = [] → reply = .started new →
      (c.stream a).length < 10 → (c.startRecording a reply).1 = true := by
    rintro new hnone rfl hroom
    exact startRecording_of_listed hrec hnone ((listed_iff hself new).mpr hroom)
  have hspec := startRecording_spec c a reply
  unfold Finds WithinTen
  generalize c.startRecording a reply = o at hspec hseen ⊢
  cases hspec with
  | already h => cases h.symm.trans hrec
  | @adopted _ r _ hlast =>
      have hmem := List.mem_of_getLast? hlast
      have hactive := List.of_mem_filter hmem
      have hten : r ∈ (c.stream a).take 10 := List.mem_of_mem_filter hmem
      have hr := List.mem_of_mem_take hten
      have hany : ¬ ∀ q ∈ c.stream a, q.active = false := fun h => by
        rw [h r hr] at hactive
        cases hactive
      exact iff_of_true ⟨fun _ => ⟨rfl, r, hr, hactive, rfl⟩, fun _ h => absurd h hany⟩
        ⟨fun _ => ⟨r, hten, hactive⟩, fun _ h => absurd h hany⟩
  | refused _ hnone _ =>
      rw [active_within_ten_iff hnone]
      refine and_congr ⟨fun h hex => ?_, fun h hex => absurd hex h⟩ ?_
      · cases (h hex).1
      · exact iff_of_true (fun _ _ h => by cases h) fun _ _ h => by cases h
  | @fallback _ r _ hnone _ hlast =>
      rw [active_within_ten_iff hnone]
      refine and_congr ⟨fun h hex => ?_, fun h hex => absurd hex h⟩ ?_
      · -- the recording that is taken has been stopped
        have hmem := List.mem_of_getLast? hlast
        obtain ⟨-, q, hq, hactive, hid⟩ := h hex
        obtain rfl : r = q :=
          Archive.eq_of_recordingId (Archive.mem_of_listed hmem).1 (List.mem_filter.mp hq).1 hid
        exact List.filter_eq_nil_iff.mp hnone r hmem hactive
      · exact iff_of_true (fun _ _ h => by cases h) fun _ _ h => by cases h
  | @unseen new _ hnone =>
      rw [active_within_ten_iff hnone]
      refine and_congr ⟨fun h hex => ?_, fun h hex => absurd hex h⟩ ?_
      · cases (h hex).1
      · refine forall_congr' fun new' => forall_congr' fun _ => forall_congr' fun heq => ?_
        exact iff_of_false (fun h => by cases h.1) fun hroom => by
          cases hseen new' hnone heq hroom
  | @started new _ hnone hlisted =>
      rw [active_within_ten_iff hnone]
      refine and_congr ⟨fun h hex => ?_, fun h hex => absurd hex h⟩ ?_
      · -- the id that is taken is that of a new recording
        obtain ⟨-, q, hq, -, hid⟩ := h hex
        exact new.id_fresh (List.mem_map.mpr ⟨q, (List.mem_filter.mp hq).1, hid.symm⟩)
      · have hroom := (listed_iff hself new).mp hlisted
        refine iff_of_true (fun new' _ heq => ?_) fun _ _ _ => hroom
        cases heq
        exact ⟨rfl, rfl⟩

/-- A listing that does not reach the active recording. -/
theorem finds_iff_elevenRecordings :
    Finds (create "aeron:udp" 10) elevenRecordings (.throws "recording exists for streamId=10") ↔
      WithinTen (create "aeron:udp" 10) elevenRecordings
        (.throws "recording exists for streamId=10") :=
  finds_iff (create "aeron:udp" 10) elevenRecordings (.throws "recording exists for streamId=10")
    rfl rfl

/-- Ten recordings of the stream have been stopped. -/
def tenStopped : Archive where
  recordings := (List.range 10).map fun i => ⟨.ofNat i, 1, 7, 10, "aeron:udp", .ofNat (i + 100)⟩
  channelMatches fragment channel := fragment == channel
  stopsUnknown := false
  nonneg := by decide
  ids := by decide
  subscriptions := by decide

/-- The archive starts an eleventh recording, with the highest id, and the call fails. -/
theorem eleventh_recording_unseen :
    let c := create "aeron:udp" 10
    let new : tenStopped.New := ⟨10, 8, 110, by decide, by decide, by decide⟩
    (∀ r ∈ c.stream tenStopped, r.active = false) ∧
      (c.startRecording tenStopped (.started new)).1 = false ∧
      (c.startRecording tenStopped (.started new)).2.1.recording_id_ = -1 ∧
      ∃ r ∈ (c.startRecording tenStopped (.started new)).2.2.recordings,
        r.recordingId = 10 ∧ r.active = true := by
  refine ⟨by decide, by decide, by decide, by decide⟩

end RecordingController

end AeronReplay
