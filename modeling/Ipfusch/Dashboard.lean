import Ipfusch.Engine
import Ipfusch.Machine
import Ipfusch.Recent

/-!
# The dashboard

`run_dashboard` keeps the last 120 interval updates and the latest one. Its loop takes updates in
two branches of a `select!` : the ticker takes all that are in the channel, and `recv` takes one.
While the dashboard is paused, the ticker leaves the channel alone, but `recv` still takes the
update, and drops it.

`dashboard_showsRecent` : if `recv` takes no update while the dashboard is paused, then whenever the
channel is empty, the history is the last 120 of the updates sent.
`not_showsRecent_paused` : an update that `recv` takes while the dashboard is paused is lost.
-/

namespace Ipfusch

/-! ## The loop -/

/-- `IntervalStats::default()` -/
instance : Inhabited IntervalStats where
  default := ⟨0, 0, 0, 0, 0, 0, 0, 0, 0, 0, 0, 0, 0, 0⟩

/-- `KeyCode`, as far as the loop tells keys apart. -/
inductive KeyCode
  | char (c : Char)
  | other
  deriving DecidableEq, Repr

/-- `KeyEventKind` -/
inductive KeyEventKind
  | press
  | repeat
  | release
  deriving DecidableEq, Repr

/-- What the event stream yields. -/
inductive TerminalEvent
  | key (code : KeyCode) (kind : KeyEventKind)
  /-- Another event, an error, or the end of the stream. -/
  | other
  deriving DecidableEq, Repr

/-- The variables of the loop. -/
structure Dashboard where
  paused : Bool
  status : String
  intervals : Recent 120 IntervalStats
  latest : IntervalStats

/-- An update is shown. -/
def Dashboard.showUpdate (d : Dashboard) (update : IntervalStats) : Dashboard :=
  { d with latest := update, intervals := d.intervals.push update }

/-- An event of the terminal, at `ts` seconds, where a snapshot can be written or not. `none` if the
loop ends. -/
def Dashboard.onEvent (d : Dashboard) (event : TerminalEvent) (ts : ℕ) (written : Bool) :
    Option Dashboard :=
  match event with
  | .other => some d
  | .key code kind =>
    if kind ≠ .press then some d
    else
      match code with
      | .char 'q' => none
      | .char 'p' =>
        let paused := !d.paused
        some { d with paused := paused, status := if paused then "paused" else "running" }
      | .char 'e' =>
        let path := "ipfusch-snapshot-" ++ toString ts ++ ".json"
        some { d with
          status := if written then "snapshot exported: " ++ path else "snapshot export failed" }
      | _ => some d

/-- The dashboard and its channel. -/
structure DashboardState where
  dashboard : Dashboard
  /-- The updates in the channel. -/
  updates : List IntervalStats
  /-- The sender is gone. -/
  closed : Bool
  /-- The loop has ended. -/
  ended : Bool

/-- What can come next. -/
inductive DashboardAction
  /-- An update is sent. -/
  | send (update : IntervalStats)
  /-- The sender goes away. -/
  | close
  /-- `select!` takes an event of the terminal. -/
  | event (event : TerminalEvent) (ts : ℕ) (written : Bool)
  /-- `select!` takes the ticker. -/
  | tick
  /-- `select!` takes `updates.recv()`. -/
  | recv
  /-- `terminal.draw` fails. -/
  | drawFails

/-- What happens to updates. -/
inductive DashboardObs
  | sent (update : IntervalStats)
  | shown (update : IntervalStats)
  | dropped (update : IntervalStats)

/-- One step of the loop or of the sender. -/
def dashboardStep (s : DashboardState) (a : DashboardAction) :
    Option (DashboardState × List DashboardObs) :=
  if s.ended then none
  else
    match a with
    | .send update =>
      if s.closed then none
      else some ({ s with updates := s.updates ++ [update] }, [.sent update])
    | .close => some ({ s with closed := true }, [])
    | .event event ts written =>
      match s.dashboard.onEvent event ts written with
      | none => some ({ s with ended := true }, [])
      | some dashboard => some ({ s with dashboard := dashboard }, [])
    | .tick =>
      if s.dashboard.paused then some (s, [])
      else
        -- `try_recv` until the channel is empty
        some ({ s with
          dashboard := s.updates.foldl Dashboard.showUpdate s.dashboard
          updates := [] }, s.updates.map .shown)
    | .recv =>
      match s.updates with
      | [] => if s.closed then some ({ s with ended := true }, []) else none
      | update :: updates =>
        if !s.dashboard.paused then
          some ({ s with dashboard := s.dashboard.showUpdate update, updates := updates },
            [.shown update])
        else some ({ s with updates := updates }, [.dropped update])
    | .drawFails => some ({ s with ended := true }, [])

/-- `run_dashboard` and the sender of its updates. -/
def dashboard : Machine DashboardState DashboardAction DashboardObs where
  init := ⟨⟨false, "running", .empty, default⟩, [], false, false⟩
  step := dashboardStep

/-! ## What a step can do -/

/-- An event of the terminal shows no update. -/
theorem Dashboard.onEvent_eq_some {d d' : Dashboard} {event : TerminalEvent} {ts : ℕ}
    {written : Bool} (h : d.onEvent event ts written = some d') :
    d'.intervals = d.intervals ∧ d'.latest = d.latest := by
  unfold Dashboard.onEvent at h
  cases event with
  | other =>
    obtain rfl := Option.some.inj h
    exact ⟨rfl, rfl⟩
  | key code kind =>
    dsimp only at h
    by_cases hkind : kind ≠ .press
    · rw [if_pos hkind] at h
      obtain rfl := Option.some.inj h
      exact ⟨rfl, rfl⟩
    · rw [if_neg hkind] at h
      split at h
      · cases h
      all_goals
        obtain rfl := Option.some.inj h
        exact ⟨rfl, rfl⟩

/-- What a step does with updates. -/
inductive DashboardEffect (s s' : DashboardState) : DashboardAction → List DashboardObs → Prop
  /-- An update enters the channel. -/
  | sends (update : IntervalStats) (hdashboard : s'.dashboard = s.dashboard)
      (hupdates : s'.updates = s.updates ++ [update]) :
      DashboardEffect s s' (.send update) [.sent update]
  /-- Updates at the front of the channel are shown. -/
  | shows {a : DashboardAction} (shown : List IntervalStats)
      (hdashboard : s'.dashboard = shown.foldl Dashboard.showUpdate s.dashboard)
      (hupdates : s.updates = shown ++ s'.updates) : DashboardEffect s s' a (shown.map .shown)
  /-- The first update of the channel is dropped, as the dashboard is paused. -/
  | drops (update : IntervalStats) (hpaused : s.dashboard.paused = true)
      (hdashboard : s'.dashboard = s.dashboard) (hupdates : s.updates = update :: s'.updates) :
      DashboardEffect s s' .recv [.dropped update]
  /-- No update is touched. -/
  | quiet {a : DashboardAction} (hintervals : s'.dashboard.intervals = s.dashboard.intervals)
      (hlatest : s'.dashboard.latest = s.dashboard.latest) (hupdates : s'.updates = s.updates) :
      DashboardEffect s s' a []

theorem dashboardStep_effect {s s' : DashboardState} {a : DashboardAction} {o : List DashboardObs}
    (hs : dashboardStep s a = some (s', o)) : DashboardEffect s s' a o := by
  unfold dashboardStep at hs
  split at hs
  · cases hs
  cases a with
  | send update =>
    dsimp only at hs
    split_ifs at hs
    obtain ⟨rfl, rfl⟩ := Prod.mk.inj (Option.some.inj hs)
    exact .sends update rfl rfl
  | close | drawFails =>
    obtain ⟨rfl, rfl⟩ := Prod.mk.inj (Option.some.inj hs)
    exact .quiet rfl rfl rfl
  | event event ts written =>
    dsimp only at hs
    split at hs
    · obtain ⟨rfl, rfl⟩ := Prod.mk.inj (Option.some.inj hs)
      exact .quiet rfl rfl rfl
    · next d hd =>
      obtain ⟨rfl, rfl⟩ := Prod.mk.inj (Option.some.inj hs)
      obtain ⟨hintervals, hlatest⟩ := Dashboard.onEvent_eq_some hd
      exact .quiet hintervals hlatest rfl
  | tick =>
    dsimp only at hs
    split_ifs at hs
    · obtain ⟨rfl, rfl⟩ := Prod.mk.inj (Option.some.inj hs)
      exact .quiet rfl rfl rfl
    · obtain ⟨rfl, rfl⟩ := Prod.mk.inj (Option.some.inj hs)
      exact .shows s.updates rfl (List.append_nil _).symm
  | recv =>
    dsimp only at hs
    split at hs
    · split_ifs at hs
      obtain ⟨rfl, rfl⟩ := Prod.mk.inj (Option.some.inj hs)
      exact .quiet rfl rfl rfl
    · next update updates hupdates =>
      split_ifs at hs with hpaused
      · obtain ⟨rfl, rfl⟩ := Prod.mk.inj (Option.some.inj hs)
        exact .shows [update] rfl hupdates
      · obtain ⟨rfl, rfl⟩ := Prod.mk.inj (Option.some.inj hs)
        exact .drops update (by simpa using hpaused) rfl hupdates

/-! ## What is shown -/

/-- The updates that were sent. -/
def sentUpdates (t : List DashboardObs) : List IntervalStats :=
  t.filterMap fun
    | .sent update => some update
    | _ => none

/-- The updates that were taken from the channel. -/
def takenUpdates (t : List DashboardObs) : List IntervalStats :=
  t.filterMap fun
    | .sent _ => none
    | .shown update => some update
    | .dropped update => some update

/-- The updates that were shown. -/
def shownUpdates (t : List DashboardObs) : List IntervalStats :=
  t.filterMap fun
    | .shown update => some update
    | _ => none

@[simp] theorem sentUpdates_append (t t' : List DashboardObs) :
    sentUpdates (t ++ t') = sentUpdates t ++ sentUpdates t' :=
  List.filterMap_append

@[simp] theorem takenUpdates_append (t t' : List DashboardObs) :
    takenUpdates (t ++ t') = takenUpdates t ++ takenUpdates t' :=
  List.filterMap_append

@[simp] theorem shownUpdates_append (t t' : List DashboardObs) :
    shownUpdates (t ++ t') = shownUpdates t ++ shownUpdates t' :=
  List.filterMap_append

@[simp] theorem sentUpdates_shown (shown : List IntervalStats) :
    sentUpdates (shown.map .shown) = [] := by
  simp [sentUpdates, List.filterMap_map]

@[simp] theorem takenUpdates_shown (shown : List IntervalStats) :
    takenUpdates (shown.map .shown) = shown := by
  simp [takenUpdates, List.filterMap_map]

@[simp] theorem shownUpdates_shown (shown : List IntervalStats) :
    shownUpdates (shown.map .shown) = shown := by
  simp [shownUpdates, List.filterMap_map]

theorem foldl_showUpdate_intervals (d : Dashboard) (shown : List IntervalStats) :
    (shown.foldl Dashboard.showUpdate d).intervals = shown.foldl Recent.push d.intervals :=
  (List.foldl_hom Dashboard.intervals fun _ _ => rfl).symm

theorem foldl_showUpdate_latest (d : Dashboard) (shown : List IntervalStats) :
    (shown.foldl Dashboard.showUpdate d).latest = shown.getLastD d.latest := by
  induction shown generalizing d with
  | nil => rfl
  | cons update rest ih => rw [List.foldl_cons, ih, List.getLastD_cons, Dashboard.showUpdate]

/-- The updates taken are those sent, up to what is in the channel, and the dashboard shows the
last ones of those that were shown. -/
structure Follows (t : List DashboardObs) (s : DashboardState) : Prop where
  sent : sentUpdates t = takenUpdates t ++ s.updates
  intervals : s.dashboard.intervals = .ofList (shownUpdates t)
  latest : s.dashboard.latest = (shownUpdates t).getLastD default

/-- A step that shows no update. -/
theorem Follows.unshown {t o : List DashboardObs} {s s' : DashboardState} (h : Follows t s)
    (hsent : sentUpdates (t ++ o) = takenUpdates (t ++ o) ++ s'.updates)
    (hshown : shownUpdates o = []) (hintervals : s'.dashboard.intervals = s.dashboard.intervals)
    (hlatest : s'.dashboard.latest = s.dashboard.latest) : Follows (t ++ o) s' := by
  have hsame : shownUpdates (t ++ o) = shownUpdates t := by
    rw [shownUpdates_append, hshown, List.append_nil]
  refine ⟨hsent, ?_, ?_⟩
  · rw [hsame, hintervals, h.intervals]
  · rw [hsame, hlatest, h.latest]

theorem Follows.step {t o : List DashboardObs} {s s' : DashboardState} {a : DashboardAction}
    (h : Follows t s) (heffect : DashboardEffect s s' a o) : Follows (t ++ o) s' := by
  have hsent := h.sent
  cases heffect with
  | sends update hdashboard hupdates =>
    refine h.unshown ?_ rfl (by rw [hdashboard]) (by rw [hdashboard])
    rw [sentUpdates_append, takenUpdates_append, hsent, hupdates]
    simp [sentUpdates, takenUpdates]
  | shows shown hdashboard hupdates =>
    refine ⟨?_, ?_, ?_⟩
    · simp [hsent, hupdates]
    · rw [hdashboard, foldl_showUpdate_intervals, h.intervals, Recent.foldl_push,
        shownUpdates_append, shownUpdates_shown]
    · rw [hdashboard, foldl_showUpdate_latest, h.latest, shownUpdates_append, shownUpdates_shown]
      simp
  | drops update hpaused hdashboard hupdates =>
    refine h.unshown ?_ rfl (by rw [hdashboard]) (by rw [hdashboard])
    rw [sentUpdates_append, takenUpdates_append, hsent, hupdates]
    simp [sentUpdates, takenUpdates]
  | quiet hintervals hlatest hupdates =>
    refine h.unshown ?_ rfl hintervals hlatest
    rw [List.append_nil, hsent, hupdates]

/-- In every run the dashboard follows its channel. -/
theorem follows_reach {t : List DashboardObs} {s : DashboardState} (h : dashboard.Reach t s) :
    Follows t s :=
  h.invariant ⟨rfl, Recent.ofList_nil.symm, rfl⟩ fun _ hfollows hs =>
    hfollows.step (dashboardStep_effect hs)

/-! ## Pauses -/

/-- `recv` takes no update while the dashboard is paused. -/
def leavesUpdates (s : DashboardState) : DashboardAction → Bool
  | .recv => !s.dashboard.paused || s.updates.isEmpty
  | _ => true

/-- The history is the last 120 of the updates sent, and the latest update is the last one. -/
structure ShowsRecent (t : List DashboardObs) (s : DashboardState) : Prop where
  intervals : s.dashboard.intervals.entries =
    (sentUpdates t).drop ((sentUpdates t).length - 120)
  latest : s.dashboard.latest = (sentUpdates t).getLastD default

/-- Without such a step, all updates that are taken are shown. -/
theorem taken_eq_shown {t : List DashboardObs} {s : DashboardState}
    (h : dashboard.ReachWhile (fun s a => leavesUpdates s a = true) t s) :
    takenUpdates t = shownUpdates t := by
  refine h.invariant (I := fun t _ => takenUpdates t = shownUpdates t) rfl fun h hleaves hs => ?_
  rw [takenUpdates_append, shownUpdates_append, h]
  cases dashboardStep_effect hs with
  | sends update => rfl
  | shows shown => simp
  | drops update hpaused hdashboard hupdates => simp [leavesUpdates, hpaused, hupdates] at hleaves
  | quiet => rfl

/-- In every run in which `recv` takes no update while the dashboard is paused : whenever the
channel is empty, the dashboard shows the last 120 of the updates sent. -/
theorem dashboard_showsRecent {t : List DashboardObs} {s : DashboardState}
    (h : dashboard.ReachWhile (fun s a => leavesUpdates s a = true) t s)
    (hupdates : s.updates = []) : ShowsRecent t s := by
  obtain ⟨hsent, hintervals, hlatest⟩ := follows_reach h.reach
  rw [hupdates, List.append_nil, taken_eq_shown h] at hsent
  rw [← hsent] at hintervals hlatest
  exact ⟨congrArg Recent.entries hintervals, hlatest⟩

/-- A press of `p`. -/
def pressP : DashboardAction :=
  .event (.key (.char 'p') .press) 0 true

/-- An update is shown, one is sent while the dashboard is paused, and shown later. -/
def pausedBetween : List DashboardAction :=
  let next := { (default : IntervalStats) with index := 1 }
  [.send default, .recv, pressP, .send next, .tick, pressP, .tick]

theorem pausedBetween_exec : ((dashboard.execWhile (fun s a => leavesUpdates s a = true)
    dashboard.init pausedBetween).map fun r => (r.1.updates, r.2.length)) = some ([], 4) := by
  rfl

theorem dashboard_showsRecent_pausedBetween : ∃ t s,
    dashboard.ReachWhile (fun s a => leavesUpdates s a = true) t s ∧ t.length = 4 ∧
      ShowsRecent t s := by
  obtain ⟨⟨s, t⟩, hexec, hr⟩ := Option.map_eq_some_iff.mp pausedBetween_exec
  obtain ⟨hupdates, hlength⟩ := Prod.mk.inj hr
  have hreach : dashboard.ReachWhile (fun s a => leavesUpdates s a = true) ([] ++ t) s :=
    Machine.ReachWhile.start.execWhile hexec
  exact ⟨_, s, hreach, hlength, dashboard_showsRecent hreach hupdates⟩

/-- An update is sent and taken by `recv` while the dashboard is paused. -/
def takenWhilePaused : List DashboardAction :=
  [pressP, .send default, .recv, pressP]

/-- The update is gone when the dashboard goes on. -/
theorem not_showsRecent_paused : ¬∀ t s, dashboard.Reach t s → s.dashboard.paused = false →
    s.updates = [] → ShowsRecent t s := by
  intro h
  have hexec : dashboard.exec dashboard.init takenWhilePaused =
      some (⟨⟨false, "running", .empty, default⟩, [], false, false⟩,
        [.sent default, .dropped default]) := rfl
  have hreach := Machine.reach_exec hexec
  have hshown := (h _ _ hreach rfl rfl).intervals
  simp [Recent.empty, sentUpdates] at hshown

end Ipfusch
