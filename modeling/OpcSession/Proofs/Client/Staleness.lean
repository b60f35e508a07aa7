import OpcSession.Proofs.Client.Dealings
import OpcSession.Proofs.Client.Faults

/-!
# When a read is stale

A read that begins after a write has returned with success gives a value that the
server has held since it applied the write; or it gives what an earlier read has left
in the cache.  That happens only one way: the earlier read was answered before the
write was applied, and comes to be over after the write has returned and dropped the
value from the cache.

* `SharedValue.Supplied` — where a read has its value from;
* `SharedValue.reads_after_writes` — the law;
* `SharedValue.Supplied.current` — reads that are not stale;
* `SharedValue.stale_after_write` — a read that is stale.
-/

namespace OpcSession.Simulation

open Session Client

namespace SharedValue

open ClientRun

variable {s : SharedValue} {past before between within after : List Deed} {v x : DataValue}
  {t w : Ticket} {g : Goal} {version applied : Nat}

/-! ## The order of deeds -/

/-- Who is answered later is another, and is answered with what was held
later. -/
theorem Told.answered_before (h : s.Told past) {d d' : Deed} {version' : Nat}
    (hsplit : past = before ++ d' :: after) (hearlier : d ∈ before)
    (hanswers : version ∈ d.version?)
    (hanswers' : version' ∈ d'.version?) : d.ticket ≠ d'.ticket ∧ version ≤ version' := by
  have hjustified := h before d' after hsplit
  cases d' with
  | answered t g r version' =>
      cases hanswers'
      exact hjustified.2.1 d hearlier version hanswers
  | _ => cases hanswers'

/-- Nobody is answered twice, so the number of what was held when a call was
answered is one. -/
theorem Told.version_unique (h : s.Told past) {d d' : Deed} (hd : d ∈ past) (hd' : d' ∈ past)
    {version' : Nat} (hanswers : version ∈ d.version?) (hanswers' : version' ∈ d'.version?)
    (hsame : d.ticket = d'.ticket) : version = version' := by
  rcases same_or_before hd hd' with rfl | ⟨before, after, hsplit, hearlier⟩ |
    ⟨before, after, hsplit, hearlier⟩
  · exact Option.mem_unique hanswers hanswers'
  · exact absurd hsame (h.answered_before hsplit hearlier hanswers hanswers').1
  · exact absurd hsame.symm (h.answered_before hsplit hearlier hanswers' hanswers).1

/-- What is answered later is answered with what is held then, which is no
older. -/
theorem Told.version_le (h : s.Told (before ++ after)) {g' : Goal} {r r' : Response}
    (hearlier : .answered w g r applied ∈ before) (hlater : .answered t g' r' version ∈ after) :
    applied ≤ version := by
  obtain ⟨middle, rest, rfl⟩ := List.append_of_mem hlater
  rw [← List.append_assoc] at h
  exact (h.answered_before rfl (List.mem_append_left _ hearlier) rfl rfl).2

/-- A call begins once, so what was before that is determined by its
ticket. -/
theorem Told.before_began (h : s.Told (before ++ .began t g :: after)) {earlier later : List Deed}
    {g' : Goal} (hsplit : before ++ .began t g :: after = earlier ++ .began t g' :: later) :
    earlier = before := by
  have hfirst := h before _ after rfl
  have hfirst' := h earlier _ later hsplit
  rcases List.append_eq_append_iff.mp hsplit with ⟨more, rfl, hrest⟩ | ⟨more, rfl, hrest⟩
  · cases more with
    | nil => simp
    | cons d more =>
        cases hrest
        exact absurd rfl (hfirst' (.began t g) (by simp))
  · cases more with
    | nil => simp
    | cons d more =>
        cases hrest
        exact absurd rfl (hfirst (.began t g') (by simp))

/-- A call is answered after it has begun, and so between that and its end. -/
theorem answered_within {r : Response} (hunknown : ∀ d ∈ before, d.ticket ≠ t)
    (hanswered : .answered t g r version ∈ before ++ .began t g :: within) :
    .answered t g r version ∈ within := by
  rcases List.mem_append.mp hanswered with hanswered | hanswered
  · exact absurd rfl (hunknown _ hanswered)
  · exact (List.mem_cons.mp hanswered).resolve_left nofun

/-- A read gives what it was answered, or at once what was in the cache when
it began. -/
theorem Told.read_cases (h : s.Told (before ++ .began t s.reads ::
      (within ++ .returned t s.reads (.ok (.data v)) :: after))) :
    (∃ r version, .answered t s.reads r version ∈ within ∧ s.versions[version]? = some v) ∨
      within = [] ∧ s.Sourced before v := by
  have hjustified := h (before ++ .began t s.reads :: within) (.returned t s.reads (.ok (.data v)))
    after (by simp)
  rcases hjustified.1 v rfl rfl with ⟨r, version, hanswered, hheld⟩ | ⟨earlier, hsame, hsourced⟩
  · exact .inl ⟨r, version, answered_within (h before _ _ rfl) hanswered, hheld⟩
  · have hlonger := congrArg (· ++ .returned t s.reads (.ok (.data v)) :: after) hsame
    obtain rfl := h.before_began (by simpa using hlonger)
    exact .inr ⟨by simpa using hsame, hsourced⟩

/-- What is in the cache at a later point was there before, and no write has
returned with success since; or it was brought since. -/
theorem Sourced.before_or_since {more : List Deed} (h : s.Sourced (before ++ more) v) :
    (s.Sourced before v ∧ ∀ w x, .returned w (s.writes x) (.ok .nothing) ∉ more) ∨
      ∃ other r version earlier later,
        more = earlier ++ .returned other s.reads (.ok (.data v)) :: later ∧
          .answered other s.reads r version ∈ before ++ earlier ∧ s.versions[version]? = some v ∧
          ∀ w x, .returned w (s.writes x) (.ok .nothing) ∉ later := by
  obtain ⟨front, other, r, version, since, hsplit, hanswered, hheld, hunwritten⟩ := h
  rcases List.append_eq_append_iff.mp hsplit with ⟨earlier, rfl, hrest⟩ | ⟨later, rfl, hrest⟩
  · exact .inr ⟨other, r, version, earlier, since, hrest, hanswered, hheld, hunwritten⟩
  · cases later with
    | nil =>
        refine .inr ⟨other, r, version, [], since, hrest.symm, ?_, hheld, hunwritten⟩
        rwa [List.append_nil, List.append_nil]
    | cons d later =>
        cases hrest
        exact .inl ⟨⟨front, other, r, version, later, rfl, hanswered, hheld,
          fun w x hreturned => hunwritten w x (List.mem_append_left _ hreturned)⟩,
          fun w x hreturned => hunwritten w x (List.mem_append_right _ hreturned)⟩

/-- What was in the cache after a write had returned with success a read
brought after that. -/
theorem Sourced.since_write
    (h : s.Sourced (before ++ .returned w (s.writes x) (.ok .nothing) :: between) v) :
    ∃ other r version earlier later,
      between = earlier ++ .returned other s.reads (.ok (.data v)) :: later ∧
        .answered other s.reads r version ∈
          before ++ .returned w (s.writes x) (.ok .nothing) :: earlier ∧
        s.versions[version]? = some v ∧
        ∀ w x, .returned w (s.writes x) (.ok .nothing) ∉ later := by
  rcases h.before_or_since with
    ⟨-, hunwritten⟩ | ⟨other, r, version, earlier, later, hsplit, hanswered, hheld, hunwritten⟩
  · exact absurd List.mem_cons_self (hunwritten w x)
  · cases earlier with
    | nil => cases hsplit
    | cons d earlier =>
        cases hsplit
        exact ⟨other, r, version, earlier, later, rfl, hanswered, hheld, hunwritten⟩

/-! ## The law -/

/-- What the server held when it answered a call has this number; none if it
has not answered. -/
def answered? (s : SharedValue) (t : Ticket) : Option Nat :=
  s.past.findSome? fun d => if d.ticket = t then d.version? else none

/-- Where a read has its value from that begins after a write has returned
with success; `before` is what happened before that, `between` what happened
before the read began, and `within` what happened until it was over. -/
inductive Supplied (s : SharedValue) (before between within : List Deed) (t : Ticket)
    (applied : Nat) (v : DataValue) : Prop
  /-- The server has answered it while it was open, and had applied the write
  by then. -/
  | asked {r : Response} {version : Nat} (hanswered : .answered t s.reads r version ∈ within)
      (hheld : s.versions[version]? = some v) (hsince : applied ≤ version)
  /-- Another read has left it in the cache that came to be over after the
  write had returned, and the server had applied the write when it answered
  that read. -/
  | cached {other : Ticket} {r : Response} {version : Nat} {earlier later : List Deed}
      (hbrought : between = earlier ++ .returned other s.reads (.ok (.data v)) :: later)
      (hanswered : .answered other s.reads r version ∈ before ++ earlier)
      (hheld : s.versions[version]? = some v) (hsince : applied ≤ version)
  /-- The server had not yet applied the write when it answered that other
  read; and no other write has returned with success since that came to be
  over. -/
  | stale {other : Ticket} {r : Response} {version : Nat} {earlier later : List Deed}
      (hbrought : between = earlier ++ .returned other s.reads (.ok (.data v)) :: later)
      (hanswered : .answered other s.reads r version ∈ before)
      (hheld : s.versions[version]? = some v) (hlate : version < applied)
      (hunwritten : ∀ w x, .returned w (s.writes x) (.ok .nothing) ∉ later)

/-- The number that a deed tells is the number that is looked up. -/
theorem Told.answered?_eq (h : s.Told s.past) {d : Deed} (hhappened : d ∈ s.past)
    (hanswers : version ∈ d.version?) : s.answered? d.ticket = some version := by
  cases hfound : s.answered? d.ticket with
  | none =>
      have hnobody := List.findSome?_eq_none_iff.mp hfound d hhappened
      rw [if_pos rfl] at hnobody
      cases hanswers.symm.trans hnobody
  | some version' =>
      obtain ⟨d', hhappened', hgiven⟩ := List.exists_of_findSome?_eq_some hfound
      split at hgiven
      · rename_i hsame
        rw [h.version_unique hhappened hhappened' hanswers hgiven hsame.symm]
      · cases hgiven

/-- A read after a write has its value from the server or from the cache, and
then an earlier read has put it there; the cases are those of `Supplied`. -/
theorem Sound.supplied (h : s.Sound)
    (hsplit : s.past = before ++ .returned w (s.writes x) (.ok .nothing) ::
      (between ++ .began t s.reads :: (within ++ .returned t s.reads (.ok (.data v)) :: after))) :
    ∃ applied, s.answered? w = some applied ∧ s.versions[applied]? = some x ∧
      s.Supplied before between within t applied v := by
  obtain ⟨r, applied, hanswered, hheld⟩ := (h.told before _ _ hsplit).2 x rfl rfl
  have hhappened : .answered w (s.writes x) r applied ∈ s.past := by
    rw [hsplit]
    exact List.mem_append_left _ hanswered
  refine ⟨applied, h.told.answered?_eq hhappened rfl, hheld, ?_⟩
  have htold := h.told
  rw [hsplit] at htold
  -- Whoever is answered after the write has returned is answered with what was held since.
  have hsince : ∀ {other : Ticket} {r' : Response} {version : Nat},
      .answered other s.reads r' version ∈ between ++ within → applied ≤ version := by
    intro other r' version hgiven
    have hlater : .answered other s.reads r' version ∈ .returned w (s.writes x) (.ok .nothing) ::
        (between ++ .began t s.reads ::
          (within ++ .returned t s.reads (.ok (.data v)) :: after)) := by
      rcases List.mem_append.mp hgiven with hgiven | hgiven <;> simp [hgiven]
    exact htold.version_le hanswered hlater
  rw [← List.cons_append, ← List.append_assoc] at htold
  rcases htold.read_cases with ⟨r', version, hgiven, hheldThen⟩ | ⟨-, hsourced⟩
  · exact .asked hgiven hheldThen (hsince (List.mem_append_right _ hgiven))
  · obtain ⟨other, r', version, earlier, later, rfl, hgiven, hheldThen, hunwritten⟩ :=
      hsourced.since_write
    have hgiven : .answered other s.reads r' version ∈ before ++ earlier := by simpa using hgiven
    by_cases hlate : version < applied
    · refine .stale rfl ((List.mem_append.mp hgiven).resolve_right fun hnew => ?_) hheldThen hlate
        hunwritten
      exact Nat.not_le_of_lt hlate (hsince (List.mem_append_left _ (List.mem_append_left _ hnew)))
    · exact .cached rfl hgiven hheldThen (Nat.le_of_not_lt hlate)

/-- **What a read gives that begins after a write has returned with success.**
However many calls read and write the value at once, and in whatever order
they are answered and go on: the server has held it since it applied the
write, or it was left in the cache by a read that was answered before the
write was applied and came to be over after the write had returned. -/
theorem reads_after_writes (url : String) (settings : ClientSettings)
    (endpoint : EndpointDescription) (credentials : Credentials) (key : Cache.Key)
    (initial : DataValue) (ds : List Dealing) (before between within after : List Deed)
    (w t : Ticket) (x v : DataValue) :
    let s := ds.foldl deal (start url settings endpoint credentials key initial)
    s.past = before ++ .returned w (s.writes x) (.ok .nothing) ::
        (between ++ .began t s.reads ::
          (within ++ .returned t s.reads (.ok (.data v)) :: after)) →
      ∃ applied, s.answered? w = some applied ∧ s.versions[applied]? = some x ∧
        s.Supplied before between within t applied v := by
  intro s hsplit
  exact ((sound_start url settings endpoint credentials key initial).deals ds).supplied hsplit

/-- **A read is current if no other is over between the write and it**: the
server has held its value since it applied the write. -/
theorem Supplied.current {applied : Nat} (h : s.Supplied before between within t applied v)
    (hquiet : ∀ other, .returned other s.reads (.ok (.data v)) ∉ between) :
    ∃ i, applied ≤ i ∧ s.versions[i]? = some v := by
  cases h with
  | asked hanswered hheld hsince => exact ⟨_, hsince, hheld⟩
  | cached hbrought hanswered hheld hsince => exact ⟨_, hsince, hheld⟩
  | stale hbrought =>
      exact absurd (hbrought ▸ List.mem_append_right _ List.mem_cons_self) (hquiet _)

/-! ## A read that is stale -/

/-- The name that a node has, and the one that it is given. -/
def oldName : DataValue := { value := .string "old" }

/-- The name that is written. -/
def newName : DataValue := { value := .string "new" }

/-- A server with a node, and a client that has not done anything. -/
def label : SharedValue :=
  start "plant" { session := { sessionName := "plant" } } (.unsecured "plant") .anonymous
    (.null, .displayName) oldName

/-- The name is read, by a call that goes through the session. -/
def look (id : String) : Dealing := .move (.act (.call id false (.read .null .displayName)))

/-- The answers of the server to a request to read the name, and to one to
write it. -/
def toldOld : ResponseEnvelope where
  handle := 3
  body := { header := .good 3, body := .read [oldName] }

/-- The server answers that it has written the name. -/
def toldWritten : ResponseEnvelope where
  handle := 4
  body := { header := .good 4, body := .write [.good] }

/-- The name is read and then written, and the server answers in that order,
but the answer to the write comes in first.  When both calls are over the name
is read again. -/
def overtaking : List Dealing :=
  look "first" :: ([.machine, .machine, Chronicle.created 1 ⟨1, .numeric 1⟩, .machine, .machine,
    Chronicle.activated 2, .machine, .machine, .caller 0].map .move ++
  [.answer 0 toldOld.body,
    .move (.act (.call "write" false (.write .null .displayName newName))), .move .machine,
    .move (.caller 1), .answer 1 toldWritten.body, .move (.received toldWritten), .move (.caller 1),
    .move (.received toldOld), .move (.caller 0), look "again"])

/-- What has happened until the write has returned: the read was answered
before it, and is not over. -/
def untilWritten : List Deed :=
  [.began 0 label.reads, .answered 0 label.reads toldOld.body 0, .began 1 (label.writes newName),
    .answered 1 (label.writes newName) toldWritten.body 1]

/-- The past of the overtaking read, cut where the write returns and where the
last read begins and is over. -/
theorem past_overtaking :
    (overtaking.foldl deal label).past = untilWritten ++
      .returned 1 ((overtaking.foldl deal label).writes newName) (.ok .nothing) ::
        ([.returned 0 label.reads (.ok (.data oldName))] ++
          .began 2 (overtaking.foldl deal label).reads ::
            ([] ++ .returned 2 (overtaking.foldl deal label).reads
              (.ok (.data oldName)) :: [])) := by
  decide +kernel

/-- The law at work: the last read gives the old name, and it does so from the
cache, where the read that was overtaken has put it. -/
theorem reads_after_writes_overtaking :
    let s := overtaking.foldl deal label
    s.past = untilWritten ++ .returned 1 (s.writes newName) (.ok .nothing) ::
        ([.returned 0 label.reads (.ok (.data oldName))] ++ .began 2 s.reads ::
          ([] ++ .returned 2 s.reads (.ok (.data oldName)) :: [])) ∧
      ∃ applied, s.answered? 1 = some applied ∧ s.versions[applied]? = some newName ∧
        s.Supplied untilWritten [.returned 0 label.reads (.ok (.data oldName))] [] 2 applied
          oldName :=
  ⟨past_overtaking,
    reads_after_writes _ _ _ _ _ _ overtaking _ _ _ _ _ _ _ _ past_overtaking⟩

/-- **A read may be stale.**  It is not so that a read that begins after a
write has returned with success gives a value that the server has held since
it applied the write: the last read of these gives what the first one has left
in the cache. -/
theorem stale_after_write :
    ¬ ∀ (ds : List Dealing) (before between within after : List Deed) (w t : Ticket)
        (x v : DataValue),
      let s := ds.foldl deal label
      s.past = before ++ .returned w (s.writes x) (.ok .nothing) ::
          (between ++ .began t s.reads ::
            (within ++ .returned t s.reads (.ok (.data v)) :: after)) →
        ∃ applied i, s.answered? w = some applied ∧ applied ≤ i ∧ s.versions[i]? = some v := by
  intro hclaim
  obtain ⟨applied, i, hanswered, hsince, hheld⟩ := hclaim overtaking _ _ _ _ _ _ _ _ past_overtaking
  have hversions : (overtaking.foldl deal label).versions = [oldName, newName] := by decide +kernel
  have hone : (overtaking.foldl deal label).answered? 1 = some 1 := by decide +kernel
  cases hone.symm.trans hanswered
  rw [hversions] at hheld
  match i with
  | 0 => cases hsince
  | 1 => exact absurd hheld (by decide)
  | i + 2 => cases hheld

end SharedValue

end OpcSession.Simulation
