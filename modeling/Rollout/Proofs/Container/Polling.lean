/-
# Polling containers

A container is read until a reading shows it ready. What is known of the
attempts on it:

| attempt | comes to |
| --- | --- |
| both calls are answered, the ports are read, the log shows an identity | the container is ready |
| both calls are answered, the ports are read, the log shows no identity | not ready, no identity yet |
| the ports are not read | not ready, for that reason |
| a call fails | not ready, for that reason |

An attempt is repeated exactly when it has failed and the pause after it ends no
later than the deadline, which is one for all containers of a host. Main
statement: `awaitReady_poll`.
-/

import Mathlib.Data.List.Forall2
import Rollout.Container.Introspection
import Rollout.Proofs.Remote.Exchange
import Rollout.Remote.Script

namespace Rollout

open Program (Runs)

namespace Container

/-! ### One attempt -/

/-- One reading of a container: when it begins, its calls, the ready container or why it is
not, and when it ends. -/
structure Attempt where
  begun : Nat
  exchanges : List Exchange
  outcome : Except String ContainerInfo
  ended : Nat

namespace Attempt

/-- The attempt has not shown a ready container. -/
def Failed (a : Attempt) : Prop :=
  ∃ last, a.outcome = .error last

/-- An attempt on a container, by what its calls are answered. -/
inductive On (host container : String) : Attempt → Prop where
  | ready {t back t' : Nat} {output logs id : String} {ports : Ports}
    (read : readPorts output = .ok ports) (identified : identity? logs = some id) :
    On host container ⟨t, [⟨t, portsCall host container, back, .ok output⟩,
      ⟨back, logsCall host container, t', .ok logs⟩], .ok ⟨container, some id, ports⟩, t'⟩
  | anonymous {t back t' : Nat} {output logs : String} {ports : Ports}
    (read : readPorts output = .ok ports) (anonymous : identity? logs = none) :
    On host container ⟨t, [⟨t, portsCall host container, back, .ok output⟩,
      ⟨back, logsCall host container, t', .ok logs⟩], .error "peer id not yet in logs", t'⟩
  | unreadable {t t' : Nat} {output : String} {e : PortError}
    (unread : readPorts output = .error e) :
    On host container ⟨t, [⟨t, portsCall host container, t', .ok output⟩],
      .error ("Ports of container " ++ container ++ " on " ++ host ++ " not discoverable: " ++
        e.message), t'⟩
  | portsFailed {t t' : Nat} (e : CallError) :
    On host container ⟨t, [⟨t, portsCall host container, t', .error e⟩],
      .error (Failure.ofCall (portsCall host container) e).line, t'⟩
  | logsFailed {t back t' : Nat} {output : String} {ports : Ports}
    (read : readPorts output = .ok ports) (e : CallError) :
    On host container ⟨t, [⟨t, portsCall host container, back, .ok output⟩,
      ⟨back, logsCall host container, t', .error e⟩],
      .error (Failure.ofCall (logsCall host container) e).line, t'⟩

/-- A ready container is the one that was asked, with an identity. -/
theorem On.of_ok {host container : String} {a : Attempt} {info : ContainerInfo}
    (h : a.On host container) (ok : a.outcome = .ok info) :
    info.id = container ∧ info.peerId ≠ none := by
  cases h with
  | ready read identified =>
    obtain rfl := Except.ok.inj ok
    exact ⟨rfl, nofun⟩
  | anonymous | unreadable | portsFailed | logsFailed => cases ok

end Attempt

variable {host container : String} {t t' : Nat} {xs : List Exchange}

/-- The words of a failure to read ports name the container and its host and give the reason. -/
theorem line_portsOf (e : PortError) : Failure.line ⟨.portsOf container host, [.ports e]⟩ =
    "Ports of container " ++ container ++ " on " ++ host ++ " not discoverable: " ++ e.message := by
  have separator : " not discoverable: " = " not discoverable" ++ ": " := by decide
  change ": ".intercalate
    ["Ports of container " ++ container ++ " on " ++ host ++ " not discoverable", e.message] = _
  rw [String.intercalate_cons_cons, String.intercalate_singleton, separator]
  simp only [String.append_assoc]

/-- Reading ports is one call, and its result is what its output shows. -/
theorem ports_runs {o : Option (Except Failure Ports)} (h : (ports host container).Runs t xs o t') :
    (∃ output, xs = [⟨t, portsCall host container, t', .ok output⟩] ∧
      o = some (portsIn host container output)) ∨
    ∃ e, xs = [⟨t, portsCall host container, t', .error e⟩] ∧
      o = some (.error (Failure.ofCall (portsCall host container) e)) := by
  rcases Runs.of_perform_bind h with ⟨output, back, ys, rfl, -, rest⟩ | ⟨e, rfl, -, rfl⟩
  · obtain ⟨rfl, rfl, rfl⟩ := Runs.of_ended rest
    exact .inl ⟨output, rfl, rfl⟩
  · exact .inr ⟨e, rfl, rfl⟩

/-- Reading an identity is one call, and its result is what the log shows. -/
theorem peerId_runs {o : Option (Except Failure (Option String))}
    (h : (peerId host container).Runs t xs o t') :
    (∃ logs, xs = [⟨t, logsCall host container, t', .ok logs⟩] ∧
      o = some (.ok (identity? logs))) ∨
    ∃ e, xs = [⟨t, logsCall host container, t', .error e⟩] ∧
      o = some (.error (Failure.ofCall (logsCall host container) e)) := by
  rcases Runs.of_perform_bind h with ⟨logs, back, ys, rfl, -, rest⟩ | ⟨e, rfl, -, rfl⟩
  · obtain ⟨rfl, rfl, rfl⟩ := Runs.of_pure rest
    exact .inl ⟨logs, rfl, rfl⟩
  · exact .inr ⟨e, rfl, rfl⟩

/-- The ports of a container are those that are read from the output. -/
theorem portsIn_eq_ok {output : String} {ports : Ports}
    (h : portsIn host container output = .ok ports) : readPorts output = .ok ports := by
  unfold portsIn at h
  split at h
  · rename_i read
    rw [read, Except.ok.inj h]
  · cases h

/-- Ports that cannot be read fail for the container, with the reason behind that. -/
theorem portsIn_eq_error {output : String} {f : Failure}
    (h : portsIn host container output = .error f) :
    ∃ e, readPorts output = .error e ∧ f = ⟨.portsOf container host, [.ports e]⟩ := by
  unfold portsIn at h
  split at h
  · cases h
  · rename_i e unread
    exact ⟨e, unread, (Except.error.inj h).symm⟩

/-- **A reading** is an attempt. -/
theorem introspect_runs {o : Option (Except Failure ContainerInfo)}
    (h : (introspect host container).Runs t xs o t') :
    ∃ r, o = some r ∧ Attempt.On host container ⟨t, xs, ready r, t'⟩ := by
  rcases Runs.of_bind h with ⟨ports, ys, zs, back, rfl, first, second⟩ | ⟨f, rfl, first⟩ |
    ⟨rfl, first⟩
  · rcases ports_runs first with ⟨output, rfl, shown⟩ | ⟨e, -, failed⟩
    · have read : readPorts output = .ok ports := portsIn_eq_ok (Option.some.inj shown).symm
      rcases Runs.of_bind second with ⟨id, us, vs, after, rfl, third, last⟩ | ⟨f, rfl, third⟩ |
        ⟨rfl, third⟩
      · obtain ⟨rfl, rfl, rfl⟩ := Runs.of_pure last
        rcases peerId_runs third with ⟨logs, rfl, shown⟩ | ⟨e, -, failed⟩
        · obtain rfl : id = identity? logs := Except.ok.inj (Option.some.inj shown)
          refine ⟨_, rfl, ?_⟩
          cases identified : identity? logs with
          | some id => exact .ready read identified
          | none => exact .anonymous read identified
        · cases failed
      · rcases peerId_runs third with ⟨logs, -, shown⟩ | ⟨e, rfl, failed⟩
        · cases shown
        · obtain rfl : f = _ := Except.error.inj (Option.some.inj failed)
          exact ⟨_, rfl, .logsFailed read e⟩
      · rcases peerId_runs third with ⟨_, -, shown⟩ | ⟨e, -, failed⟩
        · cases shown
        · cases failed
    · cases failed
  · rcases ports_runs first with ⟨output, rfl, shown⟩ | ⟨e, rfl, failed⟩
    · obtain ⟨e, unread, rfl⟩ := portsIn_eq_error (Option.some.inj shown).symm
      refine ⟨_, rfl, ?_⟩
      rw [ready, line_portsOf]
      exact .unreadable unread
    · obtain rfl : f = _ := Except.error.inj (Option.some.inj failed)
      exact ⟨_, rfl, .portsFailed e⟩
  · rcases ports_runs first with ⟨_, -, shown⟩ | ⟨e, -, failed⟩
    · cases shown
    · cases failed

/-- A reading shows a ready container exactly when it shows an identity. -/
theorem ready_eq_ok {r : Except Failure ContainerInfo} {info : ContainerInfo} :
    ready r = .ok info ↔ r = .ok info ∧ info.peerId ≠ none := by
  cases r with
  | error f => exact ⟨nofun, fun h => nomatch h.1⟩
  | ok shown =>
    rw [ready, Except.ok.injEq]
    split
    · rename_i identified
      rw [Except.ok.injEq]
      refine ⟨?_, And.left⟩
      rintro rfl
      exact ⟨rfl, Option.isSome_iff_ne_none.1 identified⟩
    · rename_i anonymous
      refine ⟨nofun, ?_⟩
      rintro ⟨rfl, identified⟩
      exact absurd (Option.isSome_iff_ne_none.2 identified) anonymous

/-! ### Attempts on one container -/

/-- The attempts on one container: each is on that container, and one follows another
exactly when that has failed and the pause after it ends no later than the deadline. -/
structure Row (host : String) (interval deadline : Nat) (container : String)
    (row : List Attempt) : Prop where
  on : ∀ a ∈ row, a.On host container
  spaced : row.IsChain fun a b => b.begun = a.ended + interval
  repeated : ∀ before a after, row = before ++ a :: after →
    (after ≠ [] ↔ a.Failed ∧ a.ended + interval ≤ deadline)

/-- The first attempt that has not failed is the last one, and it shows a ready container. -/
def Shows (row : List Attempt) (info : ContainerInfo) : Prop :=
  ∃ failed a, row = failed ++ [a] ∧ (∀ b ∈ failed, b.Failed) ∧ a.outcome = .ok info

/-- All attempts have failed, the last one for the reason `last`, and the pause after it
ends later than the deadline. -/
def GivesUp (interval deadline : Nat) (row : List Attempt) (last : String) : Prop :=
  ∃ failed a, row = failed ++ [a] ∧ (∀ b ∈ failed, b.Failed) ∧ a.outcome = .error last ∧
    deadline < a.ended + interval

variable {interval timeout deadline : Nat} {a b : Attempt} {row : List Attempt}

namespace Row

/-- An attempt that is not followed by another is a row. -/
theorem single (on : a.On host container)
    (stops : ¬(a.Failed ∧ a.ended + interval ≤ deadline)) :
    Row host interval deadline container [a] where
  on := by
    rintro b hb
    rwa [List.mem_singleton.1 hb]
  spaced := .singleton a
  repeated before b after h := by
    obtain ⟨rfl, rfl, rfl⟩ : before = [] ∧ b = a ∧ after = [] := by
      simpa [List.append_eq_singleton_iff, eq_comm] using h.symm
    exact iff_of_false (fun h => h rfl) stops

/-- A failed attempt before a row makes a longer row when the row begins one interval after it. -/
theorem cons (on : a.On host container) (failed : a.Failed) (le : a.ended + interval ≤ deadline)
    (begun : b.begun = a.ended + interval) (rest : Row host interval deadline container (b :: row)) :
    Row host interval deadline container (a :: b :: row) where
  on := List.forall_mem_cons.2 ⟨on, rest.on⟩
  spaced := .cons_cons begun rest.spaced
  repeated before c after h := by
    cases before with
    | nil =>
      obtain ⟨rfl, rfl⟩ := List.cons.inj h
      exact iff_of_true (List.cons_ne_nil _ _) ⟨failed, le⟩
    | cons d before => exact rest.repeated before c after (List.cons.inj h).2

end Row

/-- What a row shows at its end is shown behind a failed attempt too. -/
theorem Shows.cons {info : ContainerInfo} (failed : a.Failed) (h : Shows row info) :
    Shows (a :: row) info := by
  obtain ⟨before, last, rfl, all, ok⟩ := h
  exact ⟨a :: before, last, rfl, List.forall_mem_cons.2 ⟨failed, all⟩, ok⟩

/-- A row that gives up does so behind a failed attempt too. -/
theorem GivesUp.cons {last : String} (failed : a.Failed) (h : GivesUp interval deadline row last) :
    GivesUp interval deadline (a :: row) last := by
  obtain ⟨before, z, rfl, all, error, late⟩ := h
  exact ⟨a :: before, z, rfl, List.forall_mem_cons.2 ⟨failed, all⟩, error, late⟩

/-- **One step of polling** is a reading. Polling ends with it if it shows a ready container or
no pause is left, and goes on after the pause otherwise. -/
theorem poll_step {patience : Nat} {o : Option (Except Failure ContainerInfo)}
    (h : (poll host container interval timeout deadline (patience + 1)).Runs t xs o t') :
    ∃ r ys between, (introspect host container).Runs t ys (some r) between ∧
      ((∃ info, ready r = .ok info ∧ xs = ys ∧ o = some (.ok info) ∧ t' = between) ∨
      ∃ last, ready r = .error last ∧
        (deadline < between + interval ∧ xs = ys ∧
          o = some (.error (.of (.notReady container host timeout last))) ∧ t' = between ∨
        between + interval ≤ deadline ∧ ∃ zs, xs = ys ++ zs ∧
          (poll host container interval timeout deadline patience).Runs (between + interval) zs
            o t')) := by
  rcases Runs.of_attempt_bind h with ⟨r, ys, zs, between, rfl, read, rest⟩ | ⟨rfl, read⟩
  · refine ⟨r, ys, between, read, ?_⟩
    cases shown : ready r with
    | ok info =>
      rw [shown] at rest
      obtain ⟨rfl, rfl, rfl⟩ := Runs.of_pure rest
      exact .inl ⟨info, rfl, List.append_nil _, rfl, rfl⟩
    | error last =>
      rw [shown] at rest
      refine .inr ⟨last, rfl, ?_⟩
      have rest := Runs.of_now_bind rest
      split at rest
      · rename_i late
        obtain ⟨rfl, rfl, rfl⟩ := Runs.of_fail rest
        exact .inl ⟨late, List.append_nil _, rfl, rfl⟩
      · rename_i le
        exact .inr ⟨Nat.not_lt.1 le, zs, rfl, Runs.of_pause_bind rest⟩
  · obtain ⟨r, shown, -⟩ := introspect_runs read
    cases shown

/-- **Polling a container** is a row of attempts, up to the first that shows it ready or to
the deadline. -/
theorem poll_runs {patience : Nat} {r : Except Failure ContainerInfo}
    (h : (poll host container interval timeout deadline patience).Runs t xs (some r) t') :
    ∃ a row, xs = (a :: row).flatMap Attempt.exchanges ∧ a.begun = t ∧
      Row host interval deadline container (a :: row) ∧
      ((∃ info, r = .ok info ∧ Shows (a :: row) info) ∨
        ∃ last, r = .error (.of (.notReady container host timeout last)) ∧
          GivesUp interval deadline (a :: row) last) := by
  induction patience generalizing t xs with
  | zero => cases h
  | succ patience ih =>
    obtain ⟨r', ys, between, read, step⟩ := poll_step h
    obtain ⟨_, hr', on⟩ := introspect_runs read
    obtain rfl := Option.some.inj hr'
    rcases step with ⟨info, ok, rfl, hr, -⟩ | ⟨last, error, ⟨late, rfl, hr, -⟩ | ⟨le, zs, rfl, rest⟩⟩
    · refine ⟨_, [], by simp, rfl, .single on ?_, .inl ⟨info, Option.some.inj hr, [], _, rfl,
        nofun, ok⟩⟩
      rintro ⟨⟨last, error⟩, -⟩
      exact nomatch ok.symm.trans error
    · exact ⟨_, [], by simp, rfl, .single on fun h => absurd h.2 (Nat.not_le.2 late),
        .inr ⟨last, Option.some.inj hr, [], _, rfl, nofun, error, late⟩⟩
    · obtain ⟨b, row, rfl, hb, hrow, ends⟩ := ih rest
      refine ⟨⟨t, ys, ready r', between⟩, b :: row, rfl, rfl, .cons on ⟨last, error⟩ le hb hrow, ?_⟩
      rcases ends with ⟨info, rfl, shows⟩ | ⟨reason, rfl, gives⟩
      · exact .inl ⟨info, rfl, shows.cons ⟨last, error⟩⟩
      · exact .inr ⟨reason, rfl, gives.cons ⟨last, error⟩⟩

/-! ### All containers of a host -/

/-- How polling ends, by the attempts on one container after the other: every container is
ready, or the last one that was read gives up and those behind it are not read. -/
inductive PollEnds (host : String) (interval timeout deadline : Nat) (containers : List String)
    (rows : List (List Attempt)) : Except Failure (List ContainerInfo) → Prop where
  | ready {infos : List ContainerInfo}
    (on : List.Forall₂ (Row host interval deadline) containers rows)
    (shown : List.Forall₂ Shows rows infos) :
    PollEnds host interval timeout deadline containers rows (.ok infos)
  | late {before after : List String} {container : String} {earlier : List (List Attempt)}
    {row : List Attempt} {last : String} (listed : containers = before ++ container :: after)
    (read : rows = earlier ++ [row])
    (on : List.Forall₂ (Row host interval deadline) before earlier)
    (shown : ∀ row ∈ earlier, ∃ info, Shows row info)
    (final : Row host interval deadline container row)
    (gives : GivesUp interval deadline row last) :
    PollEnds host interval timeout deadline containers rows
      (.error (.of (.notReady container host timeout last)))

variable {containers : List String} {rows : List (List Attempt)}

/-- A container that is ready is followed by the end of polling the others. -/
theorem PollEnds.cons {info : ContainerInfo} {r : Except Failure (List ContainerInfo)}
    (on : Row host interval deadline container row) (shows : Shows row info)
    (h : PollEnds host interval timeout deadline containers rows r) :
    PollEnds host interval timeout deadline (container :: containers) (row :: rows)
      (r.map (info :: ·)) := by
  cases h with
  | ready all shown => exact .ready (.cons on all) (.cons shows shown)
  | late listed read before shown final gives =>
    exact .late (congrArg (container :: ·) listed) (congrArg (row :: ·) read) (.cons on before)
      (List.forall_mem_cons.2 ⟨⟨info, shows⟩, shown⟩) final gives

/-- **Polling all containers** goes through them in order, up to the first that gives up. -/
theorem each_poll_runs {patience : Nat} {r : Except Failure (List ContainerInfo)}
    (h : (Program.each (fun c => poll host c interval timeout deadline patience) containers).Runs
      t xs (some r) t') :
    ∃ rows : List (List Attempt), xs = rows.flatten.flatMap Attempt.exchanges ∧
      PollEnds host interval timeout deadline containers rows r := by
  induction containers generalizing t xs t' r with
  | nil =>
    obtain ⟨rfl, hr, -⟩ := Runs.of_pure h
    obtain rfl := Option.some.inj hr
    exact ⟨[], rfl, .ready .nil .nil⟩
  | cons container containers ih =>
    rcases Runs.of_bind h with ⟨info, ys, zs, between, rfl, first, others⟩ | ⟨f, hr, first⟩ |
      ⟨hr, -⟩
    · obtain ⟨a, row, rfl, -, on, ⟨_, hinfo, shows⟩ | ⟨_, hinfo, -⟩⟩ := poll_runs first
      · obtain rfl := Except.ok.inj hinfo
        rcases Runs.of_bind others with ⟨infos, us, vs, _, rfl, second, last⟩ | ⟨f, hr, second⟩ |
          ⟨hr, -⟩
        · obtain ⟨rfl, hr, -⟩ := Runs.of_pure last
          obtain rfl := Option.some.inj hr
          obtain ⟨rows, rfl, ends⟩ := ih second
          exact ⟨(a :: row) :: rows, by simp, ends.cons on shows⟩
        · obtain rfl := Option.some.inj hr
          obtain ⟨rows, rfl, ends⟩ := ih second
          exact ⟨(a :: row) :: rows, by simp, ends.cons on shows⟩
        · cases hr
      · cases hinfo
    · obtain rfl := Option.some.inj hr
      obtain ⟨a, row, rfl, -, on, ⟨_, hf, -⟩ | ⟨last, hf, gives⟩⟩ := poll_runs first
      · cases hf
      · obtain rfl := Except.error.inj hf
        have listed : container :: containers = [] ++ container :: containers := rfl
        exact ⟨[a :: row], by simp, .late listed rfl .nil nofun on gives⟩
    · cases hr

/-- The containers that were shown are those that were polled, in their order, and each has an
identity. -/
theorem ids_of_rows {infos : List ContainerInfo}
    (on : List.Forall₂ (Row host interval deadline) containers rows)
    (shown : List.Forall₂ Shows rows infos) :
    infos.map ContainerInfo.id = containers ∧ ∀ info ∈ infos, info.peerId ≠ none := by
  induction on generalizing infos with
  | nil =>
    cases shown
    exact ⟨rfl, nofun⟩
  | cons first _ ih =>
    cases shown with
    | cons shows shown =>
      obtain ⟨ids, named⟩ := ih shown
      obtain ⟨failed, a, rfl, -, ok⟩ := shows
      obtain ⟨id, peer⟩ := (first.on a (by simp)).of_ok ok
      exact ⟨by rw [List.map_cons, id, ids], List.forall_mem_cons.2 ⟨peer, named⟩⟩

/-- The deadline counts from the time at which polling begins, whatever the replies are and
whenever they come. -/
theorem awaitReady_poll_runs {patience : Nat} {r : Except Failure (List ContainerInfo)}
    (h : (awaitReady patience host containers (.poll interval timeout)).Runs t xs (some r) t') :
    ∃ rows : List (List Attempt), xs = rows.flatten.flatMap Attempt.exchanges ∧
      PollEnds host interval timeout (t + timeout) containers rows r :=
  each_poll_runs (Runs.of_now_bind h)

/-- **Polling** a host's containers gives the first ready reading of each, in the order of the
list, or gives up on one of them: the containers before it are ready, those behind it are not
read, and the reason is that of its last attempt, after which no pause was left. -/
theorem awaitReady_poll {σ : Type} (remote : Remote σ) (position patience : Nat) (host : String)
    (containers : List String) (interval timeout start : Nat) (s : σ)
    {r : Except Failure (List ContainerInfo)}
    (h : ((awaitReady patience host containers (.poll interval timeout)).run remote position s
      start).result = some r) :
    ∃ rows : List (List Attempt),
      ((awaitReady patience host containers (.poll interval timeout)).run remote position s
        start).events = (rows.flatten.flatMap Attempt.exchanges).flatMap (Exchange.events position) ∧
      PollEnds host interval timeout (start + timeout) containers rows r ∧
      ∀ infos, r = .ok infos →
        infos.map ContainerInfo.id = containers ∧ ∀ info ∈ infos, info.peerId ≠ none := by
  obtain ⟨xs, events, runs⟩ := Program.runs_run remote position
    (awaitReady patience host containers (.poll interval timeout)) s start
  rw [h] at runs
  obtain ⟨rows, rfl, ends⟩ := awaitReady_poll_runs runs
  refine ⟨rows, events, ends, ?_⟩
  rintro infos rfl
  cases ends with
  | ready on shown => exact ids_of_rows on shown

end Container

/-- A host with three containers. The log of the first shows an identity when it is read
again, those of the others never do. -/
def Script.slowHost : Script.Host where
  name := "h"
  containers := [⟨"x", ["7/tcp->:7\n9/tcp->:9"], ["", "server peer id=p"]⟩,
    ⟨"y", ["7/tcp->:7\n9/tcp->:9"], [""]⟩, ⟨"z", ["7/tcp->:7\n9/tcp->:9"], [""]⟩]
  listing := none
  system := none
  rules := []
  delay := 0

/-- The first container is ready at 5. The second is read at 5 and once more at 10, which is
the deadline, and the third is not read. -/
theorem Container.awaitReady_poll_late :
    ((awaitReady 3 "h" ["x", "y", "z"] (.poll 5 10)).run (Script.remote [Script.slowHost]) 0 []
      0).result = some (.error (.of (.notReady "y" "h" 10 "peer id not yet in logs"))) ∧
    ∃ rows : List (List Attempt),
      ((awaitReady 3 "h" ["x", "y", "z"] (.poll 5 10)).run (Script.remote [Script.slowHost]) 0 []
        0).events = (rows.flatten.flatMap Attempt.exchanges).flatMap (Exchange.events 0) ∧
      PollEnds "h" 5 10 (0 + 10) ["x", "y", "z"] rows
        (.error (.of (.notReady "y" "h" 10 "peer id not yet in logs"))) := by
  have result : ((awaitReady 3 "h" ["x", "y", "z"] (.poll 5 10)).run
      (Script.remote [Script.slowHost]) 0 [] 0).result =
        some (.error (.of (.notReady "y" "h" 10 "peer id not yet in logs"))) := by
    decide +kernel
  obtain ⟨rows, events, ends, -⟩ := awaitReady_poll (Script.remote [Script.slowHost]) 0 3 "h"
    ["x", "y", "z"] 5 10 0 [] result
  exact ⟨result, rows, events, ends⟩

end Rollout
