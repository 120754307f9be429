import IndexPlanner.Proofs.Advice.Coverage
import IndexPlanner.Session

/-!
# What an advisor counts and logs

An advisor is called again and again, for any queries, catalogs and statistics, while the
threshold of the log may be set to anything in between.  This file says what has been counted
and what has been logged after any number of calls, and that the threshold is seen in
nothing but the log.

* `Advice.record_eq_enter`: advice is recorded step by step, and part of that is skipped if the
  threshold is high.  What has been counted and written in the end is the activity of the advice.
* `AdviceCall` is a call for advice, `Session.answers` has the replies to calls that follow
  one another, and `Session.afterCalls` is the session after them.
* `answer_eq_reply`, and from it `result_answer`, `countersOf_answer` and `log_answer`, say what
  comes of one call.
* `AdviceCall.totals` is what calls count together, and `countersOf_afterCalls` is that they
  count it.
* `sortRisk_of_documentBytes_eq_zero`: without statistics no risk is seen.
* `bookkeeping_of_calls`: all this for any calls.
-/

namespace IndexPlanner

/-! ## What a record comes to -/

/-- Risks that are counted one by one are counted together. -/
theorem Counters.times_sortRisksFlagged (n : Nat) :
    times n { sortRisksFlagged := 1 } = { sortRisksFlagged := UInt64.ofNat n } := by
  induction n with
  | zero => rfl
  | succ n ih =>
    rw [times, ih, UInt64.ofNat_add, UInt64.add_comm]
    rfl

namespace Advice

variable {a : Advice} {j : Journal} {cs : List CandidateReport}

/-- The loop that tells about candidates may be left out where nothing of it is written. -/
theorem evaluated_loop_eq_enter :
    (if j.enabled .trace then cs.foldl (fun j c => j.write (evaluated c)) j else j) =
      j.enter { events := cs.map evaluated } := by
  split
  · rw [Journal.foldl_eq_enter fun j c => j.write_eq_enter (evaluated c)]
    exact congrArg (fun counts => j.enter ⟨_, counts⟩) (Counters.times_zero cs.length)
  · next hquiet =>
    refine (Journal.enter_of_not_enabled fun e he => ?_).symm
    obtain ⟨c, -, rfl⟩ := List.mem_map.1 he
    exact Bool.eq_false_iff.2 hquiet

/-- The loop that counts risks and tells about them. -/
theorem warned_loop_eq_enter :
    cs.foldl (fun j c => (j.count { sortRisksFlagged := 1 }).write (warned c)) j =
      j.enter { events := cs.map warned,
                counts := { sortRisksFlagged := UInt64.ofNat cs.length } } := by
  rw [Journal.foldl_eq_enter fun j c => j.write_count_eq_enter _ (warned c),
    Counters.times_sortRisksFlagged]

/-- **A record enters the activity of the advice**, wherever the threshold stands. -/
theorem record_eq_enter : a.record j = j.enter a.activity := by
  have hrecommended (j : Journal) :
      (if a.recommendation?.isSome then j.count { recommendationsIssued := 1 } else j) =
        j.enter { counts :=
          { recommendationsIssued := if a.recommendation?.isSome then 1 else 0 } } := by
    split
    · exact j.count_eq_enter _
    · exact (Journal.enter_of_not_enabled (by simp)).symm
  unfold record
  dsimp only
  rw [evaluated_loop_eq_enter, warned_loop_eq_enter, hrecommended, Journal.write_eq_enter,
    Journal.count_eq_enter, Journal.count_eq_enter]
  simp only [Journal.enter_append]
  -- what the steps have entered, taken together
  congr 1
  simp [Activity.append_eq, activity, counts, Counters.add]

end Advice

namespace Advisor

variable {advisor : Advisor} {shape : QueryShape} {catalog : Catalog} {j : Journal}

theorem adviseWith_eq {stats? : Option CorpusStats} :
    advisor.adviseWith shape catalog stats? j =
      (advisor.adviceOn shape catalog stats?,
        j.enter (advisor.adviceOn shape catalog stats?).activity) := by
  rw [adviseWith, Advice.record_eq_enter]

/-- That statistics are missing is told first. -/
theorem adviseCollection_eq {table : StatsTable} {collection : String} :
    advisor.adviseCollection shape catalog table collection j =
      (advisor.adviceOn shape catalog (table.get? collection),
        j.enter ({ events := if (table.get? collection).isNone then [statsUnavailable collection]
                             else [] } ++
          (advisor.adviceOn shape catalog (table.get? collection)).activity)) := by
  have hmissing : (if (table.get? collection).isNone then j.write (statsUnavailable collection)
      else j) = j.enter { events := if (table.get? collection).isNone then
        [statsUnavailable collection] else [] } := by
    split
    · exact j.write_eq_enter _
    · exact (Journal.enter_of_not_enabled (by simp)).symm
  rw [adviseCollection, hmissing, adviseWith_eq, Journal.enter_append]

end Advisor

/-! ## Calls -/

/-- A call for advice: for statistics that are given, or for those of a collection, which are
looked up in a table and may be missing there. -/
inductive AdviceCall where
  | given (shape : QueryShape) (catalog : Catalog) (stats : CorpusStats)
  | lookedUp (shape : QueryShape) (catalog : Catalog) (table : StatsTable) (collection : String)

namespace AdviceCall

/-- The query that a call is about. -/
def shape : AdviceCall → QueryShape
  | given shape .. => shape
  | lookedUp shape .. => shape

/-- The catalog whose indexes are looked at. -/
def catalog : AdviceCall → Catalog
  | given _ catalog _ => catalog
  | lookedUp _ catalog .. => catalog

/-- The statistics that a call finds. -/
def stats? : AdviceCall → Option CorpusStats
  | given _ _ stats => some stats
  | lookedUp _ _ table collection => table.get? collection

/-- The advice that a call is answered with. -/
def advice (advisor : Advisor) (call : AdviceCall) : Advice :=
  advisor.adviceOn call.shape call.catalog call.stats?

/-- What is told first: that there are no statistics, if there are none. -/
def missing : AdviceCall → List Event
  | given .. => []
  | lookedUp _ _ table collection =>
    if (table.get? collection).isNone then [statsUnavailable collection] else []

/-- All that is told about a call: what is missing, every candidate as it is ranked, every
candidate with a risk as it is ranked, and the outcome. -/
def events (advisor : Advisor) (call : AdviceCall) : List Event :=
  call.missing ++ (call.advice advisor).candidates.map Advice.evaluated ++
    ((call.advice advisor).candidates.filter (·.cost.sortRisk)).map Advice.warned ++
    [(call.advice advisor).completed]

/-- What a call comes to besides its advice. -/
def activity (advisor : Advisor) (call : AdviceCall) : Activity where
  events := call.events advisor
  counts := (call.advice advisor).counts

/-- That statistics are missing is told and not counted. -/
theorem activity_eq (advisor : Advisor) (call : AdviceCall) :
    call.activity advisor = { events := call.missing } ++ (call.advice advisor).activity := by
  rw [Activity.append_eq, activity, events, List.append_assoc, List.append_assoc,
    ← List.append_assoc (List.map _ _)]
  exact congrArg (Activity.mk _) (Counters.zero_add _).symm

/-- Nothing that is told about a call is a failure. -/
theorem isFailure_of_mem_events {advisor : Advisor} {call : AdviceCall} {e : Event}
    (h : e ∈ call.events advisor) : e.severity.isFailure = false := by
  simp only [events, List.mem_append, List.mem_map, List.mem_singleton] at h
  rcases h with ((h | ⟨c, -, rfl⟩) | ⟨c, -, rfl⟩) | rfl
  · cases call with
    | given shape catalog stats => exact absurd h List.not_mem_nil
    | lookedUp shape catalog table collection =>
      rw [missing] at h
      split at h
      · rw [List.mem_singleton.1 h]
        rfl
      · exact absurd h List.not_mem_nil
  · rfl
  · rfl
  · rfl

/-- What calls count together: the calls, the indexes that were looked at, the candidates with
a risk, and the recommendations. -/
def totals (advisor : Advisor) (calls : List AdviceCall) : Counters where
  advisories := UInt64.ofNat calls.length
  candidatesEvaluated := UInt64.ofNat (calls.flatMap (·.catalog.indexes)).length
  sortRisksFlagged := UInt64.ofNat
    ((calls.flatMap fun call => (call.advice advisor).candidates).countP (·.cost.sortRisk))
  recommendationsIssued := UInt64.ofNat
    (calls.countP fun call => (call.advice advisor).recommendation?.isSome)

variable (advisor : Advisor)

@[simp] theorem totals_nil : totals advisor [] = .zero := rfl

/-- A call counts one for itself, and what its advice says. -/
theorem totals_cons (call : AdviceCall) (calls : List AdviceCall) :
    totals advisor (call :: calls) =
      (call.advice advisor).counts.add (totals advisor calls) := by
  have hsize : (call.advice advisor).candidates.length = call.catalog.indexes.length :=
    advisor.length_candidates_adviceOn call.shape call.catalog call.stats?
  have hrisky : (call.advice advisor).risky.length =
      (call.advice advisor).candidates.countP (·.cost.sortRisk) :=
    List.countP_eq_length_filter.symm
  have hrecommended :
      UInt64.ofNat ((call :: calls).countP fun c => (c.advice advisor).recommendation?.isSome) =
        (if (call.advice advisor).recommendation?.isSome = true then 1 else 0) +
          UInt64.ofNat (calls.countP fun c => (c.advice advisor).recommendation?.isSome) := by
    rw [List.countP_cons, UInt64.ofNat_add, UInt64.add_comm]
    congr 1
    split <;> rfl
  simp only [totals, Advice.counts, Counters.add, hsize, hrisky, hrecommended, List.length_cons,
    List.flatMap_cons, List.length_append, List.countP_append, UInt64.ofNat_add]
  rw [UInt64.add_comm (UInt64.ofNat calls.length)]
  rfl

end AdviceCall

/-! ## One call -/

namespace Session

/-- Answers a call, with the log at a threshold. -/
def answer (s : Session) (threshold : Severity) : AdviceCall → Reply Advice
  | .given shape catalog stats => (s.setThreshold threshold).advise shape catalog stats
  | .lookedUp shape catalog table collection =>
    { s.setThreshold threshold with stats := table }.adviseCollection shape catalog collection

/-- The session as a call finds it. -/
def before (s : Session) (threshold : Severity) : AdviceCall → Session
  | .given .. => s.setThreshold threshold
  | .lookedUp _ _ table _ => { s.setThreshold threshold with stats := table }

variable (s : Session) (threshold : Severity) (call : AdviceCall)

/-- **A call is answered with its advice, and its activity is counted and logged.** -/
theorem answer_eq_reply : s.answer threshold call =
    (s.before threshold call).reply .advisor (call.advice s.advisor)
      (call.activity s.advisor) := by
  cases call with
  | given shape catalog stats => exact run_eq_reply fun j => Advisor.adviseWith_eq
  | lookedUp shape catalog table collection =>
    have hoperation (j : Journal) : s.advisor.adviseCollection shape catalog table collection j =
        (s.advisor.adviceOn shape catalog (table.get? collection), j.enter
          (AdviceCall.activity s.advisor (.lookedUp shape catalog table collection))) := by
      rw [AdviceCall.activity_eq]
      exact Advisor.adviseCollection_eq
    exact run_eq_reply hoperation

theorem result_answer : (s.answer threshold call).result = call.advice s.advisor := by
  rw [answer_eq_reply]
  rfl

/-- Counting changes nothing of a session but counters. -/
theorem advisor_count (ledger : Ledger) (c : Counters) :
    (s.count ledger c).advisor = s.advisor := by
  unfold count setCounters
  split <;> rfl

theorem advisor_answer : (s.answer threshold call).session.advisor = s.advisor := by
  rw [answer_eq_reply]
  cases call <;> exact advisor_count ..

/-- What an advisor counts is counted where it counts. -/
theorem countersOf_advisor_count (c : Counters) :
    (s.count .advisor c).countersOf .advisor = (s.countersOf .advisor).add c := by
  cases h : s.tally <;> simp only [count, setCounters, countersOf, h] <;> rfl

theorem countersOf_answer :
    (s.answer threshold call).session.countersOf .advisor =
      (s.countersOf .advisor).add (call.advice s.advisor).counts := by
  rw [answer_eq_reply]
  cases call <;> exact countersOf_advisor_count ..

/-- Of all that is told about a call the log has what reaches the threshold. -/
theorem log_answer : (s.answer threshold call).log =
    { output := (Log.kept threshold (call.events s.advisor)).map Event.line } := by
  have hlog : (s.answer threshold call).log = .ofEvents threshold (call.events s.advisor) := by
    rw [answer_eq_reply]
    cases call <;> rfl
  have hfailures : ∀ e ∈ Log.kept threshold (call.events s.advisor),
      e.severity.isFailure = false := fun e he =>
    AdviceCall.isFailure_of_mem_events (List.mem_filter.1 he).1
  rw [hlog, Log.ofEvents, List.filter_eq_self.2 fun e he => by simp [hfailures e he],
    List.filter_eq_nil_iff.2 fun e he => by simp [hfailures e he], List.map_nil]

/-- What an advisor counts on its own is counted there and nowhere else. -/
theorem counters_count {s : Session} {own : Counters} (h : s.tally = .own own) (c : Counters) :
    (s.count .advisor c).counters = s.counters ∧
      ∃ own', (s.count .advisor c).tally = .own own' := by
  simp only [count, setCounters, h]
  exact ⟨trivial, _, rfl⟩

/-- If an advisor has counters of its own, those of the catalog stay as they are. -/
theorem counters_answer {own : Counters} (h : s.tally = .own own) :
    (s.answer threshold call).session.counters = s.counters ∧
      ∃ own', (s.answer threshold call).session.tally = .own own' := by
  rw [answer_eq_reply]
  have htally : (s.before threshold call).tally = .own own := by cases call <;> exact h
  have hcounters : (s.before threshold call).counters = s.counters := by cases call <;> rfl
  rw [← hcounters]
  exact counters_count htally _

/-! ## Calls that follow one another -/

/-- The replies to calls that follow one another, each with the log at its own threshold. -/
def answers (s : Session) : List (Severity × AdviceCall) → List (Reply Advice)
  | [] => []
  | c :: calls => s.answer c.1 c.2 :: (s.answer c.1 c.2).session.answers calls

/-- The session after calls that follow one another. -/
def afterCalls (s : Session) : List (Severity × AdviceCall) → Session
  | [] => s
  | c :: calls => (s.answer c.1 c.2).session.afterCalls calls

variable {s} {calls : List (Severity × AdviceCall)}

/-- Each call gets the advice that it would get on its own. -/
theorem map_result_answers :
    (s.answers calls).map (·.result) = calls.map fun c => c.2.advice s.advisor := by
  induction calls generalizing s with
  | nil => rfl
  | cons c calls ih =>
    rw [answers, List.map_cons, List.map_cons, ih, result_answer, advisor_answer]

/-- Each call is logged as it would be on its own. -/
theorem map_log_answers :
    (s.answers calls).map (·.log) = calls.map fun c =>
      { output := (Log.kept c.1 (c.2.events s.advisor)).map Event.line } := by
  induction calls generalizing s with
  | nil => rfl
  | cons c calls ih =>
    rw [answers, List.map_cons, List.map_cons, ih, log_answer, advisor_answer]

/-- The counters rise by what the calls count together, modulo `2 ^ 64`. -/
theorem countersOf_afterCalls :
    (s.afterCalls calls).countersOf .advisor =
      (s.countersOf .advisor).add (AdviceCall.totals s.advisor (calls.map (·.2))) := by
  induction calls generalizing s with
  | nil => rw [afterCalls, List.map_nil, AdviceCall.totals_nil, Counters.add_zero]
  | cons c calls ih =>
    rw [afterCalls, ih, advisor_answer, countersOf_answer, List.map_cons,
      AdviceCall.totals_cons, Counters.add_assoc]

/-- Calls for advice are no changes of a catalog. -/
theorem catalogCounts_afterCalls :
    ((s.afterCalls calls).countersOf .advisor).catalogAdds = (s.countersOf .advisor).catalogAdds ∧
    ((s.afterCalls calls).countersOf .advisor).catalogDrops =
      (s.countersOf .advisor).catalogDrops ∧
    ((s.afterCalls calls).countersOf .advisor).catalogRejections =
      (s.countersOf .advisor).catalogRejections := by
  rw [countersOf_afterCalls]
  exact ⟨UInt64.add_zero _, UInt64.add_zero _, UInt64.add_zero _⟩

theorem counters_afterCalls {own : Counters} (h : s.tally = .own own) :
    (s.afterCalls calls).counters = s.counters := by
  induction calls generalizing s own with
  | nil => rfl
  | cons c calls ih =>
    obtain ⟨hcounters, own', hown'⟩ := s.counters_answer c.1 c.2 h
    rw [afterCalls, ih hown', hcounters]

end Session

/-! ## Calls without statistics -/

/-- Documents without any bytes are never too large to be sorted. -/
theorem CostEstimate.sortRisk_of_documentBytes_eq_zero (shape : QueryShape) (m : IndexMatch)
    {stats : CorpusStats} (config : PlannerConfig) (h : stats.documentBytes = 0) :
    (of shape m stats config).sortRisk = false := by
  have hbytes : (of shape m stats config).sortBytes = 0 := by
    rw [sortBytes_eq, h, bytes]
    split <;> rfl
  rw [sortRisk_eq, hbytes, decide_eq_false UInt64.not_lt_zero, Bool.and_false]

/-- Without statistics no candidate has a risk. -/
theorem Advisor.sortRisk_of_mem_candidates_none {advisor : Advisor} {shape : QueryShape}
    {catalog : Catalog} {c : CandidateReport}
    (h : c ∈ (advisor.adviceOn shape catalog none).candidates) : c.cost.sortRisk = false := by
  obtain ⟨d, -, rfl⟩ := mem_candidates_adviceOn_iff.1 h
  exact CostEstimate.sortRisk_of_documentBytes_eq_zero shape _ advisor.config rfl

namespace Session

/-- **The bookkeeping of an advisor.**  However many calls for advice follow one another, and
wherever the threshold of the log stands at each of them, the counters rise by the numbers of
calls, of indexes that were looked at, of candidates with a risk and of recommendations, and
no counter of changes to a catalog moves.  The advice and the counters are the same at all
thresholds.  At the lowest threshold the log of a call has all that is told about it, and at
any other one it has the part that reaches the threshold.  A collection without statistics
gets the candidates and the recommendation of an empty one, and no candidate with a risk. -/
theorem bookkeeping_of_calls (s : Session) (calls : List (Severity × AdviceCall)) :
    (s.answers calls).map (·.result) = calls.map (fun c => c.2.advice s.advisor) ∧
    (s.afterCalls calls).countersOf .advisor =
      (s.countersOf .advisor).add (AdviceCall.totals s.advisor (calls.map (·.2))) ∧
    (((s.afterCalls calls).countersOf .advisor).catalogAdds =
        (s.countersOf .advisor).catalogAdds ∧
      ((s.afterCalls calls).countersOf .advisor).catalogDrops =
        (s.countersOf .advisor).catalogDrops ∧
      ((s.afterCalls calls).countersOf .advisor).catalogRejections =
        (s.countersOf .advisor).catalogRejections) ∧
    (∀ own, s.tally = .own own → (s.afterCalls calls).countersOf .catalog = s.counters) ∧
    (∀ other : List (Severity × AdviceCall), other.map (·.2) = calls.map (·.2) →
      (s.answers other).map (·.result) = (s.answers calls).map (·.result) ∧
      (s.afterCalls other).countersOf .advisor = (s.afterCalls calls).countersOf .advisor) ∧
    (s.answers calls).map (·.log) = calls.map (fun c =>
      { output := ((c.2.events s.advisor).filter (·.severity.reaches c.1)).map Event.line }) ∧
    (∀ call, (s.answer .trace call).log =
      { output := (call.events s.advisor).map Event.line }) ∧
    ∀ shape catalog table collection, table.get? collection = none →
      let unknown := (AdviceCall.lookedUp shape catalog table collection).advice s.advisor
      let empty := (AdviceCall.given shape catalog ⟨0, 0⟩).advice s.advisor
      unknown.stats? = none ∧ unknown.candidates = empty.candidates ∧
        unknown.recommendation? = empty.recommendation? ∧
        ∀ c ∈ unknown.candidates, c.cost.sortRisk = false := by
  refine ⟨map_result_answers, countersOf_afterCalls, catalogCounts_afterCalls,
    fun own h => counters_afterCalls h, fun other hother => ⟨?_, ?_⟩, map_log_answers,
    fun call => ?_, ?_⟩
  · have hadvice := congrArg (List.map fun call : AdviceCall => call.advice s.advisor) hother
    rw [List.map_map, List.map_map] at hadvice
    rw [map_result_answers, map_result_answers]
    exact hadvice
  · rw [countersOf_afterCalls, countersOf_afterCalls, hother]
  · have hall : Log.kept .trace (call.events s.advisor) = call.events s.advisor :=
      List.filter_eq_self.2 fun e _ => decide_eq_true (Nat.zero_le _)
    rw [log_answer, hall]
  · intro shape catalog table collection hnone
    have hadvice : (AdviceCall.lookedUp shape catalog table collection).advice s.advisor =
        s.advisor.adviceOn shape catalog none :=
      congrArg (s.advisor.adviceOn shape catalog) hnone
    simp only [hadvice]
    exact ⟨rfl, rfl, rfl, fun c hc => Advisor.sortRisk_of_mem_candidates_none hc⟩

end Session

end IndexPlanner
