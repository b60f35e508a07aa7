import Mathlib.Data.Fintype.Basic
import OpcSession.Proofs.Client.Records
import OpcSession.Proofs.Client.Staleness

/-!
# A cache that makes no difference

Where calls about a value come one after another and nobody else changes it, a client
with a cache gives what it would give without.

* `OwnValue.Sequential`, `OwnValue.Answered` — one call after another, and no request is
  left without an answer;
* `OwnValue.AsUncached` — what a read gives where there is no cache;
* `OwnValue.reads_as_uncached` — the law.
-/

namespace OpcSession.Simulation

open Session Client

namespace SharedValue

variable {s : SharedValue} {past : List Deed} {t : Ticket} {g g' : Goal}

/-- A call begins with one goal, so it is about the value all along or not at
all. -/
theorem Told.goal_unique (h : s.Told past) (hbegan : .began t g ∈ past)
    (hbegan' : .began t g' ∈ past) : g = g' := by
  rcases same_or_before hbegan hbegan' with hsame | ⟨before, after, hsplit, hearlier⟩ |
    ⟨before, after, hsplit, hearlier⟩
  · cases hsame
    rfl
  · exact absurd rfl (h before _ after hsplit _ hearlier)
  · exact absurd rfl (h before _ after hsplit _ hearlier)

/-- A call gets one answer, so what it gives after a response is
determined. -/
theorem Told.answer_unique (h : s.Told past) {r r' : Response} {version version' : Nat}
    (hanswered : .answered t g r version ∈ past) (hanswered' : .answered t g' r' version' ∈ past) :
    r = r' := by
  rcases same_or_before hanswered hanswered' with hsame | ⟨before, after, hsplit, hearlier⟩ |
    ⟨before, after, hsplit, hearlier⟩
  · cases hsame
    rfl
  · exact absurd rfl (h.answered_before hsplit hearlier rfl rfl).1
  · exact absurd rfl (h.answered_before hsplit hearlier rfl rfl).1

end SharedValue

section Replies

variable {b : Response} {t : Ticket} {g : Goal} {version : Nat} {node : NodeId} {a : AttributeId}
  {v x : DataValue}

/-- What is written with success is what the call wants to write, and the call
comes to nothing else. -/
theorem reply_of_written (h : (Deed.answered t g b version).written? = some x) :
    (∃ node a, g = .write node a x) ∧ g.reply b = .ok .nothing := by
  unfold Deed.written? at h
  cases hfault : b.fault? with
  | some status => simp [hfault] at h
  | none =>
      simp only [hfault, Option.isSome_none, Bool.false_eq_true, if_false] at h
      cases g with
      | write node a y =>
          unfold written? at h
          cases htold : writeStatus b with
          | error e => simp [htold] at h
          | ok status =>
              simp only [htold] at h
              split at h
              · rename_i hgood
                cases h
                exact ⟨⟨node, a, rfl⟩, by simp [Goal.reply, hfault, htold, Except.bind, hgood]⟩
              · cases h
      | _ => cases h

/-- A read gives no value but the one that the answer brings; there is no
other way to come by one from the server. -/
theorem readValue_of_reply (h : .ok (.data v) = (Goal.read node a).reply b) :
    readValue b = .ok v := by
  unfold Goal.reply at h
  cases hfault : b.fault? with
  | some status => simp [hfault] at h
  | none =>
      simp only [hfault] at h
      cases hbrought : readValue b with
      | error e =>
          rw [hbrought] at h
          cases h
      | ok value =>
          rw [hbrought] at h
          cases h
          rfl

end Replies

namespace OwnValue

open ClientRun SharedValue

variable (w : OwnValue)

/-! ## One call after another -/

/-- A call about the value begins only when all that have begun before it are
over. -/
def Sequential : Prop :=
  ∀ i : Fin w.past.length, w.past[i].isBegin → w.About w.past[i].goal →
    ∀ d ∈ w.past.take i, d.isBegin → w.About d.goal →
      ∃ d' ∈ w.past.take i, d'.ticket = d.ticket ∧ d'.isReturn

/-- It can be checked whether calls came one after another, since the past is
a list of deeds. -/
instance : Decidable w.Sequential := by
  unfold Sequential
  infer_instance

/-- No request about the value is left without an answer: for a call that has
sent one and is over a response has come in. -/
def Answered : Prop :=
  ∀ d ∈ w.past, d.isReturn → w.About d.goal →
    (∃ x ∈ w.letters, x.isSent ∧ x.ticket = d.ticket) →
      ∃ x ∈ w.letters, x.isCame ∧ x.ticket = d.ticket

instance : Decidable w.Answered := by
  unfold Answered
  infer_instance

variable {w} {before within after : List Deed} {t : Ticket} {g : Goal} {d : Deed}
  {result : Result} {v : DataValue}

/-- A call about the value that has returned after it had sent its request had
a response. -/
theorem Answered.came (h : w.Answered) (hreturned : .returned t g result ∈ w.past)
    (habout : w.About g) (hsent : Sent w.letters t g) : ∃ b, .came t b ∈ w.letters := by
  obtain ⟨e, hsent, -⟩ := hsent
  obtain ⟨x, hx, hcame, hticket⟩ := h _ hreturned rfl habout ⟨_, hsent, rfl, rfl⟩
  cases x with
  | came t' b =>
      cases hticket
      exact ⟨b, hx⟩
  | _ => cases hcame

/-- Calls about the value that began before another were over before it. -/
theorem Sequential.returned (h : w.Sequential) (hsplit : w.past = before ++ .began t g :: after)
    (habout : w.About g) {t' : Ticket} {g' : Goal} (hearlier : .began t' g' ∈ before)
    (habout' : w.About g') : ∃ g'' result, .returned t' g'' result ∈ before := by
  have hhere : before.length < w.past.length := by simp [hsplit]
  have hnow : w.past[before.length] = .began t g := by simp [hsplit]
  have huntil' : w.past.take before.length = before := by simp [hsplit]
  have hall := h ⟨before.length, hhere⟩
  simp only [Fin.getElem_fin, hnow, huntil'] at hall
  obtain ⟨d, hhappened, hsame, hreturns⟩ := hall rfl habout _ hearlier rfl habout'
  cases d with
  | returned t'' g'' result =>
      cases hsame
      exact ⟨g'', result, hhappened⟩
  | _ => cases hreturns

/-- **While a read is not over nothing is written**, for any other call about
the value was over before it or begins after it. -/
theorem Recorded.unwritten_within (h : w.Recorded) (hsequential : w.Sequential)
    (hsplit : w.past = before ++ .began t w.reads ::
      (within ++ .returned t w.reads result :: after)) : ∀ d ∈ within, d.written? = none := by
  intro d hd
  by_contra hwritten
  obtain ⟨first, second, rfl⟩ := List.append_of_mem hd
  have htimely := h.timely (before ++ .began t w.reads :: first) d
    (second ++ .returned t w.reads result :: after) (by simp [hsplit])
  cases d with
  | answered u g r version =>
      obtain ⟨habout, ⟨hbegan, hwaits⟩, -⟩ := htimely
      rcases List.mem_append.mp hbegan with hbegan | hbegan
      · -- A write that had begun before had returned.
        obtain ⟨g', result', hreturned⟩ := hsequential.returned hsplit rfl hbegan habout
        exact hwaits _ (List.mem_append_left _ hreturned) rfl rfl
      rcases List.mem_cons.mp hbegan with hsame | hbegan
      · cases hsame
        exact hwritten (ite_self _)
      · -- When a later one began the read had returned.
        obtain ⟨early, late, rfl⟩ := List.append_of_mem hbegan
        have hlater : w.past = (before ++ .began t w.reads :: early) ++ .began u g ::
            (late ++ .answered u g r version ::
              (second ++ .returned t w.reads result :: after)) := by simp [hsplit]
        obtain ⟨g', result', hreturned⟩ := hsequential.returned hlater habout
          (List.mem_append_right before List.mem_cons_self) rfl
        obtain ⟨⟨-, hopen'⟩, -⟩ := h.timely (before ++ .began t w.reads ::
          (early ++ .began u g :: late ++ .answered u g r version :: second))
          (.returned t w.reads result) after (by simp [hsplit])
        refine hopen' (.returned t g' result') ?_ rfl rfl
        rcases List.mem_append.mp hreturned with hreturned | hreturned
        · exact List.mem_append_left _ hreturned
        · refine List.mem_append_right before ?_
          rcases List.mem_cons.mp hreturned with hsame | hreturned
          · cases hsame
          · simp [hreturned]
  | _ => exact hwritten rfl

/-- **What the server answers a read it has held since the read began.** -/
theorem Recorded.answered_stored (h : w.Recorded) (hsequential : w.Sequential)
    (hsplit : w.past = before ++ .began t w.reads ::
      (within ++ .returned t w.reads result :: after)) {r : Response} {version : Nat}
    (hanswered : .answered t w.reads r version ∈ within) (hbrought : readValue r = .ok v) :
    v = w.stored before := by
  have hunwritten := h.unwritten_within hsequential hsplit
  obtain ⟨first, second, rfl⟩ := List.append_of_mem hanswered
  obtain ⟨-, -, hheld⟩ := h.timely (before ++ .began t w.reads :: first)
    (.answered t w.reads r version) (second ++ .returned t w.reads result :: after)
    (by simp [hsplit])
  refine (hheld rfl v hbrought).trans (stored_append fun d hd => ?_)
  rcases List.mem_cons.mp hd with rfl | hd
  · rfl
  · exact hunwritten d (List.mem_append_left _ hd)

/-- How a call about the value has come to be over: it had begun before, and
gives what it may. -/
theorem Recorded.comes (h : w.Recorded) (hsplit : w.past = before ++ .returned t g result :: after)
    (habout : w.About g) : .began t g ∈ before ∧ Comes w.key w.letters before t g result :=
  have ⟨⟨hbegan, _⟩, hcomes⟩ := h.timely before _ after hsplit
  ⟨hbegan, hcomes habout⟩

/-- **A write that the server has answered with success returns so.**  Its
response has come in, and it cannot have been lost or refused. -/
theorem Recorded.acknowledges (h : w.Recorded) (htold : w.Told w.past) (hall : w.Answered)
    {u : Ticket} {b : Response} {version : Nat} {x : DataValue}
    (hanswered : .answered u g b version ∈ w.past)
    (hwritten : (Deed.answered u g b version).written? = some x) {g' : Goal}
    (hreturned : .returned u g' result ∈ w.past) :
    ∃ y, g' = w.writes y ∧ result = .ok .nothing := by
  obtain ⟨earlier, later, hsplit⟩ := List.append_of_mem hanswered
  obtain ⟨habout, ⟨hbegan, -⟩, -⟩ := h.timely earlier _ later hsplit
  obtain ⟨before, after, hsplit'⟩ := List.append_of_mem hreturned
  obtain ⟨⟨hbegan', -⟩, -⟩ := h.timely before _ after hsplit'
  have hpast : ∀ {d}, d ∈ earlier → d ∈ w.past := fun hd => hsplit ▸ List.mem_append_left _ hd
  have hpast' : ∀ {d}, d ∈ before → d ∈ w.past := fun hd => hsplit' ▸ List.mem_append_left _ hd
  obtain rfl : g = g' := htold.goal_unique (hpast hbegan) (hpast' hbegan')
  obtain ⟨⟨node, a, rfl⟩, hreply⟩ := reply_of_written hwritten
  obtain ⟨-, hcomes⟩ := h.comes hsplit' habout
  obtain rfl : node = w.key.1 := congrArg Prod.fst habout
  obtain rfl : a = w.key.2 := congrArg Prod.snd habout
  have hsent := h.asked _ _ _ _ hanswered
  refine ⟨x, rfl, ?_⟩
  cases hcomes with
  | answered hanswered' =>
      obtain rfl := htold.answer_unique hanswered (hpast' hanswered')
      exact hreply
  | cached hreads => cases hreads
  | unanswered _ hunheard =>
      obtain ⟨b', hcame⟩ := hall.came hreturned habout hsent
      exact absurd hcame (hunheard b')
  | refused _ hunsent =>
      obtain ⟨q, hsent, -⟩ := hsent
      exact absurd hsent (hunsent q)

/-- **After a read has left a value in the cache nothing is written**, unless
the write returns with success. -/
theorem Recorded.unwritten_since (h : w.Recorded) (htold : w.Told w.past)
    (hsequential : w.Sequential) (hall : w.Answered) {since : List Deed}
    (hsplit : w.past = before ++ d :: (since ++ .began t g :: after)) (habout : w.About g)
    (hunwritten : ∀ u x, .returned u (w.writes x) (.ok .nothing) ∉ since) :
    ∀ d ∈ since, d.written? = none := by
  intro d' hd'
  by_contra hwritten
  obtain ⟨first, second, rfl⟩ := List.append_of_mem hd'
  cases d' with
  | answered u g' r version =>
      obtain ⟨x, hwritten⟩ := Option.ne_none_iff_exists'.mp hwritten
      have hsplit' : w.past = (before ++ d :: first) ++ .answered u g' r version ::
          (second ++ .began t g :: after) := by simp [hsplit]
      have hsplit'' : w.past = ((before ++ d :: first) ++ .answered u g' r version :: second) ++
          .began t g :: after := by simp [hsplit]
      obtain ⟨habout', ⟨hbegan, hwaits⟩, -⟩ := h.timely _ _ _ hsplit'
      obtain ⟨g'', result, hreturned⟩ :=
        hsequential.returned hsplit'' habout (List.mem_append_left _ hbegan) habout'
      obtain ⟨y, rfl, rfl⟩ := h.acknowledges htold hall
        (hsplit' ▸ List.mem_append_right _ List.mem_cons_self) hwritten
        (hsplit'' ▸ List.mem_append_left _ hreturned)
      rcases List.mem_append.mp hreturned with hreturned | hreturned
      · exact hwaits _ hreturned rfl rfl
      · rcases List.mem_cons.mp hreturned with hsame | hreturned
        · cases hsame
        · exact hunwritten u y (by simp [hreturned])
  | _ => exact hwritten rfl

/-- A read that was answered gives what the server has held since the read
began. -/
theorem Recorded.given_stored (h : w.Recorded) (htold : w.Told w.past) (hsequential : w.Sequential)
    (hsplit : w.past = before ++ .began t w.reads ::
      (within ++ .returned t w.reads (.ok (.data v)) :: after)) {r : Response} {version : Nat}
    (hanswered : .answered t w.reads r version ∈ within) : v = w.stored before := by
  have hsplit' : w.past = (before ++ .began t w.reads :: within) ++
      .returned t w.reads (.ok (.data v)) :: after := by simp [hsplit]
  have hunknown : ∀ d ∈ before, d.ticket ≠ t := htold before _ _ hsplit
  obtain ⟨-, hcomes⟩ := h.comes hsplit' rfl
  generalize hresult : (Except.ok (Value.data v) : Result) = result at hcomes
  cases hcomes with
  | unanswered => cases hresult
  | refused => cases hresult
  | answered hanswered' =>
      exact h.answered_stored hsequential hsplit (answered_within hunknown hanswered')
        (readValue_of_reply hresult)
  | @cached earlier v' hreads hatOnce =>
      -- A read that gives a value at once gets no answer.
      have hsame := htold earlier (.began t w.reads) (.returned t w.reads (.ok (.data v)) :: after)
        (by rw [hsplit', hatOnce]; simp)
      have hearly : .answered t w.reads r version ∈ earlier ++ [.began t w.reads] :=
        hatOnce ▸ List.mem_append_right before (List.mem_cons_of_mem _ hanswered)
      rcases List.mem_append.mp hearly with hearly | hearly
      · exact absurd rfl (hsame _ hearly)
      · cases List.mem_singleton.mp hearly

/-- **What a read finds in the cache the server holds.**  A read has brought
it, and a write since then would have dropped it when it returned. -/
theorem Recorded.cached_stored (h : w.Recorded) (htold : w.Told w.past)
    (hsequential : w.Sequential) (hall : w.Answered)
    (hsplit : w.past = before ++ .began t w.reads :: after) (hsourced : w.Sourced before v) :
    v = w.stored before := by
  obtain ⟨front, t', r, version, since, rfl, hanswered, -, hunwritten⟩ := hsourced
  have hsplit' : w.past = front ++ .returned t' w.reads (.ok (.data v)) ::
      (since ++ .began t w.reads :: after) := by simp [hsplit]
  obtain ⟨hbegan, -⟩ := h.comes hsplit' rfl
  obtain ⟨early, within, rfl⟩ := List.append_of_mem hbegan
  have hsplit'' : w.past = early ++ .began t' w.reads ::
      (within ++ .returned t' w.reads (.ok (.data v)) :: (since ++ .began t w.reads :: after)) := by
    simp [hsplit]
  have hunknown : ∀ d ∈ early, d.ticket ≠ t' := htold early _ _ hsplit''
  refine (h.given_stored htold hsequential hsplit'' (answered_within hunknown hanswered)).trans
    (Eq.symm ?_)
  rw [List.append_assoc]
  refine stored_append fun d hd => ?_
  rcases List.mem_append.mp hd with hd | hd
  · rcases List.mem_cons.mp hd with rfl | hd
    · rfl
    · exact h.unwritten_within hsequential hsplit'' d hd
  · rcases List.mem_cons.mp hd with rfl | hd
    · rfl
    · exact h.unwritten_since htold hsequential hall hsplit' rfl hunwritten d hd

/-! ## The law -/

/-- A read gives what it would give without a cache; `before` is what happened
before it began, and `within` what happened until it was over. -/
inductive AsUncached (w : OwnValue) (before within : List Deed) (t : Ticket) : Result → Prop
  /-- It has sent a request to read the value, and gives what the answer to
  that says: the value, if there is one, that the server held when the read
  began. -/
  | asked {b : Response} {version : Nat} (hsent : Sent w.letters t w.reads)
      (hanswered : .answered t w.reads b version ∈ within)
      (hcurrent : ∀ v, readValue b = .ok v → v = w.stored before) :
      AsUncached w before within t (w.reads.reply b)
  /-- It gives at once what it has found in the cache: what the server held
  when the read began, which is no value of a node, and is good. -/
  | cached (hatOnce : within = []) (hfleeting : w.key.2 ≠ .value)
      (hgood : (w.stored before).status.isGood) :
      AsUncached w before within t (.ok (.data (w.stored before)))
  /-- It could send no request, and gives the reason; a cache does not help
  where nothing is held. -/
  | refused {e : SessionError} (hrefused : .refused t e ∈ w.letters)
      (hunsent : ∀ q, .sent t q ∉ w.letters) : AsUncached w before within t (.error (.session e))

/-- A read that is over gives what it would have given without a cache,
whether or not it was asked of the server. -/
theorem Recorded.as_uncached (h : w.Recorded) (htold : w.Told w.past)
    (hsequential : w.Sequential) (hall : w.Answered)
    (hsplit : w.past = before ++ .began t w.reads ::
      (within ++ .returned t w.reads result :: after)) : w.AsUncached before within t result := by
  have hsplit' : w.past = (before ++ .began t w.reads :: within) ++
      .returned t w.reads result :: after := by simp [hsplit]
  have hunknown : ∀ d ∈ before, d.ticket ≠ t := htold before _ _ hsplit
  obtain ⟨-, hcomes⟩ := h.comes hsplit' rfl
  cases hcomes with
  | refused hrefused hunsent => exact .refused hrefused hunsent
  | unanswered hsent hunheard =>
      have hreturned : .returned t w.reads _ ∈ w.past :=
        hsplit' ▸ List.mem_append_right _ List.mem_cons_self
      obtain ⟨b, hcame⟩ := hall.came hreturned rfl hsent
      exact absurd hcame (hunheard b)
  | @answered b version hanswered =>
      replace hanswered := answered_within hunknown hanswered
      refine .asked (h.asked t w.reads b version (by simp [hsplit, hanswered])) hanswered
        fun v hbrought => h.answered_stored hsequential hsplit hanswered hbrought
  | @cached earlier v hreads hatOnce hfleeting hgood =>
      have hwhole : w.Told (before ++ .began t w.reads ::
          (within ++ .returned t w.reads (.ok (.data v)) :: after)) := hsplit ▸ htold
      obtain rfl : earlier = before := by
        have hlonger := congrArg (· ++ .returned t w.reads (.ok (.data v)) :: after) hatOnce
        exact hwhole.before_began (by simpa using hlonger)
      rcases hwhole.read_cases with ⟨r, version, hanswered, -⟩ | ⟨rfl, hsourced⟩
      · obtain rfl : within = [] := by simpa using hatOnce
        cases hanswered
      · obtain rfl := h.cached_stored htold hsequential hall hsplit hsourced
        exact .cached rfl hfleeting hgood

/-- **A cache makes no difference.**  Whatever the settings of the client,
however time goes by, whatever is done to the cache, and however often the
session is lost: where the calls about a value do not overlap, only they
change it, and no request about it is left without an answer, a read either
asks the server and gives what that answers, which is what it has held since
the read began, or gives that from the cache; but the value of a node is not
given from the cache, nor a value that is not good.  A read that can send no
request gives the reason, which has nothing to do with the cache. -/
theorem reads_as_uncached (url : String) (settings : ClientSettings)
    (endpoint : EndpointDescription) (credentials : Credentials) (key : Cache.Key)
    (initial : DataValue) (makes : Nat → DataValue → DataValue) (turns : List Turn)
    (before within after : List Deed) (t : Ticket) (result : Result) :
    let w := turns.foldl turn (start url settings endpoint credentials key initial makes)
    w.Sequential → w.Answered →
    w.past = before ++ .began t w.reads :: (within ++ .returned t w.reads result :: after) →
      w.AsUncached before within t result := by
  intro w hsequential hall hsplit
  obtain ⟨hrecorded, hsound⟩ :=
    (recorded_start url settings endpoint credentials key initial makes).turns
      (sound_start url settings endpoint credentials key initial) turns
  exact hrecorded.as_uncached hsound.told hsequential hall hsplit

/-- **A read of the value of a node asks for it**, unless it can send no
request. -/
theorem AsUncached.sent_of_value (h : w.AsUncached before within t result)
    (hnode : w.key.2 = .value) (hfree : ∀ e, .refused t e ∉ w.letters) :
    Sent w.letters t w.reads := by
  cases h with
  | asked hsent => exact hsent
  | cached hatOnce hfleeting => exact absurd hnode hfleeting
  | refused hrefused => exact absurd hrefused (hfree _)

/-! ## A name that is changed -/

/-- A server that notes when it was written to, so what it holds is not what
was written. -/
def noting (n : Nat) (v : DataValue) : DataValue := { v with serverTimestamp := some (.ofNat n) }

/-- The server answers that it holds the new name, with the time at which it
was written. -/
def toldNew : ResponseEnvelope where
  handle := 5
  body := { header := .good 5, body := .read [noting 0 newName] }

/-- The name is read, twice, and written; the cache is made smaller; and the
name is read twice again. -/
def relabelling : List Turn :=
  .move (.act (.call "first" false (.read .null .displayName))) ::
    ([.machine, .machine, Chronicle.created 1 ⟨1, .numeric 1⟩, .machine, .machine,
      Chronicle.activated 2, .machine, .machine, .caller 0].map .move ++
  [.answer 0 toldOld.body, .move (.received toldOld), .move (.caller 0),
    .move (.act (.call "second" false (.read .null .displayName))),
    .move (.act (.call "write" false (.write .null .displayName newName))), .move .machine,
    .move (.caller 2), .answer 2 toldWritten.body, .move (.received toldWritten), .move (.caller 2),
    .care (.setMaxEntries 1),
    .move (.act (.call "third" false (.read .null .displayName))), .move .machine,
    .move (.caller 3), .answer 3 toldNew.body, .move (.received toldNew), .move (.caller 3),
    .move (.act (.call "fourth" false (.read .null .displayName)))])

/-- The client and the server after that, from a client that was just made. -/
def relabelled : OwnValue :=
  relabelling.foldl turn (start "plant" { session := { sessionName := "plant" } }
    (.unsecured "plant") .anonymous (.null, .displayName) oldName noting)

/-- What has happened before the last read, which the cache answers. -/
def untilFourth : List Deed := relabelled.past.take 11

/-- The past of the relabelled value, cut where the last read begins. -/
theorem past_relabelled :
    relabelled.past = untilFourth ++ .began 4 relabelled.reads ::
      ([] ++ .returned 4 relabelled.reads (.ok (.data (noting 0 newName))) :: []) := by
  decide +kernel

/-- The last read finds in the cache what the server has made of the new
name. -/
theorem reads_as_uncached_relabelled :
    relabelled.Sequential ∧ relabelled.Answered ∧
      relabelled.past = untilFourth ++ .began 4 relabelled.reads ::
        ([] ++ .returned 4 relabelled.reads (.ok (.data (noting 0 newName))) :: []) ∧
      relabelled.AsUncached untilFourth [] 4 (.ok (.data (noting 0 newName))) := by
  have hsequential : relabelled.Sequential := by decide +kernel
  have hanswered : relabelled.Answered := by decide +kernel
  exact ⟨hsequential, hanswered, past_relabelled,
    reads_as_uncached _ _ _ _ _ _ _ relabelling _ _ _ _ _ hsequential hanswered past_relabelled⟩

end OwnValue

end OpcSession.Simulation
