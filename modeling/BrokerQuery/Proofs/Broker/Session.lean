import BrokerQuery.Broker.Client
/-
  Sessions played to their end, and outcomes read.

  One session after another is played against what the first one leaves (`Session.run_bind`), so
  the transcript of a composite can be read off the transcripts of its parts.

  `Outcome.Gives` says what an outcome gives to whoever asks for a body that can be decoded, with no
  look at how answers are read; `read` agrees with it (`Outcome.gives_read`).
-/

namespace BrokerQuery

/-! ## Sessions -/

/-- What happened in one session and then in another. -/
def Transcript.followedBy (t : Transcript α) (u : Transcript β) : Transcript β where
  value := u.value
  requests := t.requests ++ u.requests
  warnings := t.warnings ++ u.warnings
  printed := t.printed ++ u.printed

/-- A session that goes on is played against the outcomes that the first part leaves. -/
theorem Session.run_bind (s : Session α) (next : α → Session β) (outcomes : Nat → Outcome) :
    (s.bind next).run outcomes = (s.run outcomes).followedBy
      ((next (s.run outcomes).value).run
        fun n => outcomes (n + (s.run outcomes).requests.length)) := by
  induction s generalizing outcomes with
  | done a =>
    show _ = Transcript.followedBy ⟨a, [], [], ""⟩ ((next a).run outcomes)
    simp [Session.bind, Transcript.followedBy]
  | ask request rest ih =>
    -- One outcome is used up here, so what is left starts one further on, on both sides.
    simp only [Session.bind, run, ih]
    rfl
  | warn warning rest ih =>
    simp only [Session.bind, run, ih]
    rfl
  | print text rest ih =>
    simp only [Session.bind, run, ih, Transcript.followedBy, String.append_assoc]

/-- What happened, with another value made of the one that came out. -/
def Transcript.map (f : α → β) (t : Transcript α) : Transcript β := { t with value := f t.value }

/-- A session whose value is turned into another one sends and writes what it did before. -/
theorem Session.run_map (f : α → β) (s : Session α) (outcomes : Nat → Outcome) :
    (s.bind fun a => .done (f a)).run outcomes = (s.run outcomes).map f := by
  rw [run_bind]
  simp [Transcript.followedBy, Transcript.map, run]

/-! ## Outcomes -/

/-- What an outcome gives to a request whose answer is to be decoded: only a body that came with
status 200 and can be decoded gives a value. -/
inductive Outcome.Gives (decode? : String → Option α) : Outcome → Except ClientError α → Prop
  | silence : Gives decode? .silence (.error .noAnswer)
  | refused {status : Nat} {body : String} (h : status ≠ 200) :
      Gives decode? (.answer status body) (.error (.refused status body))
  | unreadable {body : String} (h : decode? body = none) :
      Gives decode? (.answer 200 body) (.error .unreadable)
  | value {body : String} {a : α} (h : decode? body = some a) :
      Gives decode? (.answer 200 body) (.ok a)

/-- Reading an outcome gives what the outcome gives. -/
theorem Outcome.gives_read (decode? : String → Option α) (o : Outcome) :
    o.Gives decode? (o.read decode?) := by
  cases o with
  | silence => exact .silence
  | answer status body =>
    by_cases hstatus : status = 200
    · rw [hstatus]
      cases hbody : decode? body with
      | none =>
        have hread : (Outcome.answer 200 body).read decode? = .error .unreadable := by
          simp [read, success, hbody, bind, Except.bind]
        rw [hread]
        exact .unreadable hbody
      | some a =>
        have hread : (Outcome.answer 200 body).read decode? = .ok a := by
          simp [read, success, hbody, bind, Except.bind, pure, Except.pure]
        rw [hread]
        exact .value hbody
    · have hread : (Outcome.answer status body).read decode? = .error (.refused status body) := by
        simp [read, success, hstatus, bind, Except.bind]
      rw [hread]
      exact .refused hstatus

/-- A value is read iff it came with status 200 in a body that can be decoded. -/
theorem Outcome.read_eq_ok_iff (decode? : String → Option α) (o : Outcome) (a : α) :
    o.read decode? = .ok a ↔ ∃ body, o = .answer 200 body ∧ decode? body = some a := by
  have hgives := o.gives_read decode?
  generalize o.read decode? = result at hgives
  constructor
  · rintro rfl
    cases hgives with
    | value hbody => exact ⟨_, rfl, hbody⟩
  · rintro ⟨body, rfl, hbody⟩
    cases hgives with
    | refused h => exact absurd rfl h
    | unreadable h => exact nomatch h.symm.trans hbody
    | value h => rw [Option.some.inj (h.symm.trans hbody)]

end BrokerQuery
