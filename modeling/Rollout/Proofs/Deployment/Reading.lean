/-
# The readings of a host

A deployment that succeeds has one reading for every container of the host's
listing, in the order of the listing. A reading is what two calls show, the
published ports and then the log.

Main statement: `PhasePlan.deployNodes_ok`.
-/

import Mathlib.Data.List.Forall2
import Rollout.Proofs.Container.Polling
import Rollout.Proofs.Deployment.Procedure

namespace Rollout

open Program

/-- Two of the exchanges, one right after the other, show what is in `info`: the
published ports of its container, and the log. -/
def Shown (host : String) (xs : List Exchange) (info : ContainerInfo) : Prop :=
  ∃ x y output logs, [x, y] <:+: xs ∧
    x.call = Container.portsCall host info.id ∧ x.reply = .ok output ∧
    Container.readPorts output = .ok info.ports ∧
    y.call = Container.logsCall host info.id ∧ y.reply = .ok logs ∧
    Container.identity? logs = info.peerId

/-- What some exchanges show is shown where these stand among more. -/
theorem Shown.mono {host : String} {xs ys : List Exchange} {info : ContainerInfo}
    (h : Shown host xs info) (hle : xs <:+: ys) : Shown host ys info := by
  obtain ⟨x, y, output, logs, infix_, rest⟩ := h
  exact ⟨x, y, output, logs, infix_.trans hle, rest⟩

/-- Elements that are gone through one after the other each have a run of their
own. -/
theorem Program.Runs.of_each_ok {ε α β : Type} {f : α → Program ε β} {as : List α} {bs : List β}
    {t t' : Nat} {xs : List Exchange} (h : (each f as).Runs t xs (some (.ok bs)) t') :
    List.Forall₂ (fun a b => ∃ begun ys ended, ys <:+: xs ∧
      (f a).Runs begun ys (some (.ok b)) ended) as bs := by
  induction as generalizing bs t xs t' with
  | nil =>
    obtain ⟨-, ho, -⟩ := Runs.of_pure h
    obtain rfl : bs = [] := by simpa using ho
    exact .nil
  | cons a as ih =>
    obtain ⟨b, ys, _, between, rfl, first, h⟩ := Runs.of_bind_ok h
    obtain ⟨rest, zs, _, _, rfl, hrest, hend⟩ := Runs.of_bind_ok h
    obtain ⟨rfl, ho, -⟩ := Runs.of_pure hend
    obtain rfl : bs = b :: rest := by simpa using ho
    rw [List.append_nil]
    refine .cons ⟨t, ys, between, (List.prefix_append ..).isInfix, first⟩ ((ih hrest).imp ?_)
    rintro a b ⟨begun, us, ended, hle, runs⟩
    exact ⟨begun, us, ended, hle.trans (List.suffix_append ..).isInfix, runs⟩

namespace Container

variable {host : String} {t t' : Nat} {xs : List Exchange}

/-- Reading a container gives what its two calls show. -/
theorem introspect_ok {container : String} {info : ContainerInfo}
    (h : (introspect host container).Runs t xs (some (.ok info)) t') :
    info.id = container ∧ Shown host xs info := by
  obtain ⟨ports, ys, zs, _, rfl, hports, hrest⟩ := Runs.of_bind_ok h
  obtain ⟨peerId, us, vs, _, rfl, hpeer, hend⟩ := Runs.of_bind_ok hrest
  obtain ⟨rfl, hinfo, -⟩ := Runs.of_pure hend
  obtain rfl : info = ⟨container, peerId, ports⟩ := by simpa using hinfo
  rcases ports_runs hports with ⟨output, rfl, read⟩ | ⟨e, -, failed⟩
  · rcases peerId_runs hpeer with ⟨logs, rfl, shown⟩ | ⟨e, -, failed⟩
    · exact ⟨rfl, _, _, output, logs, ⟨[], [], rfl⟩, rfl, rfl,
        portsIn_eq_ok (Option.some.inj read).symm, rfl, rfl,
        (Except.ok.inj (Option.some.inj shown)).symm⟩
    · cases failed
  · cases failed

/-- Polling comes to an end with the first reading that shows an identity. -/
theorem poll_introspects {container : String} {interval timeout deadline : Nat}
    {info : ContainerInfo} :
    ∀ {patience t xs}, (poll host container interval timeout deadline patience).Runs t xs
      (some (.ok info)) t' → info.peerId ≠ none ∧ ∃ begun ys, ys <:+ xs ∧
        (introspect host container).Runs begun ys (some (.ok info)) t'
  | 0, _, _, h => nomatch h
  | patience + 1, t, xs, h => by
    obtain ⟨r, ys, between, read, ⟨shown, ok, rfl, ho, rfl⟩ | ⟨last, -, ⟨-, -, ho, -⟩ |
      ⟨-, zs, rfl, rest⟩⟩⟩ := poll_step h
    · obtain rfl := Except.ok.inj (Option.some.inj ho)
      obtain ⟨rfl, identified⟩ := ready_eq_ok.1 ok
      exact ⟨identified, t, xs, List.suffix_rfl, read⟩
    · cases ho
    · obtain ⟨identified, begun, vs, hle, runs⟩ := poll_introspects rest
      exact ⟨identified, begun, vs, hle.trans (List.suffix_append ..), runs⟩

/-- A container that is polled until it is ready is shown by the last reading. -/
theorem poll_ok {container : String} {interval timeout deadline patience : Nat}
    {info : ContainerInfo}
    (h : (poll host container interval timeout deadline patience).Runs t xs
      (some (.ok info)) t') : info.id = container ∧ Shown host xs info := by
  obtain ⟨-, begun, ys, hle, runs⟩ := poll_introspects h
  obtain ⟨hid, shown⟩ := introspect_ok runs
  exact ⟨hid, shown.mono hle.isInfix⟩

/-- Containers that are read one after the other are each shown. -/
theorem each_ok {f : String → Program Failure ContainerInfo}
    (hf : ∀ c t xs info t', (f c).Runs t xs (some (.ok info)) t' →
      info.id = c ∧ Shown host xs info) {containers : List String} {infos : List ContainerInfo}
    (h : (each f containers).Runs t xs (some (.ok infos)) t') :
    infos.map ContainerInfo.id = containers ∧ ∀ info ∈ infos, Shown host xs info := by
  have read : List.Forall₂ (fun c info => info.id = c ∧ Shown host xs info) containers infos := by
    refine (Runs.of_each_ok h).imp ?_
    rintro c info ⟨_, ys, _, hle, runs⟩
    obtain ⟨hid, shown⟩ := hf c _ ys info _ runs
    exact ⟨hid, shown.mono hle⟩
  clear h
  induction read with
  | nil => exact ⟨rfl, fun info h => absurd h List.not_mem_nil⟩
  | cons first _ ih =>
    obtain ⟨hid, shown⟩ := first
    obtain ⟨hids, all⟩ := ih
    exact ⟨by rw [List.map_cons, hid, hids], List.forall_mem_cons.2 ⟨shown, all⟩⟩

/-- **Waiting for containers** gives a reading of each. -/
theorem awaitReady_ok {patience : Nat} {containers : List String} {readiness : Readiness}
    {infos : List ContainerInfo}
    (h : (awaitReady patience host containers readiness).Runs t xs (some (.ok infos)) t') :
    infos.map ContainerInfo.id = containers ∧ ∀ info ∈ infos, Shown host xs info := by
  cases readiness with
  | settle delay =>
    obtain ⟨_, ys, zs, _, rfl, -, h⟩ := Runs.of_bind_ok h
    obtain ⟨hids, shown⟩ := each_ok (fun _ _ _ _ _ => introspect_ok) h
    exact ⟨hids, fun info hi => (shown info hi).mono (List.suffix_append ..).isInfix⟩
  | poll interval timeout =>
    obtain ⟨_, ys, zs, _, rfl, -, h⟩ := Runs.of_bind_ok h
    obtain ⟨hids, shown⟩ := each_ok (fun _ _ _ _ _ => poll_ok) h
    exact ⟨hids, fun info hi => (shown info hi).mono (List.suffix_append ..).isInfix⟩

end Container

/-- Polling gives an identity of every container. -/
theorem Container.awaitReady_identified {host : String} {t t' : Nat} {xs : List Exchange}
    {patience interval timeout : Nat} {containers : List String} {infos : List ContainerInfo}
    (h : (awaitReady patience host containers (.poll interval timeout)).Runs t xs
      (some (.ok infos)) t') : ∀ info ∈ infos, info.peerId ≠ none := by
  obtain ⟨_, ys, zs, _, -, -, reads⟩ := Runs.of_bind_ok h
  have polled := Runs.of_each_ok reads
  clear h reads
  induction polled with
  | nil => exact fun info h => absurd h List.not_mem_nil
  | cons first _ ih =>
    obtain ⟨begun, ys, ended, -, runs⟩ := first
    exact List.forall_mem_cons.2 ⟨(poll_introspects runs).1, ih⟩

/-- **A host that succeeds** has as many readings as the layout says, one for
every listed container, in the order of the listing. -/
theorem PhasePlan.deployNodes_ok {phase : PhasePlan} {settings : Settings} {patience : Nat}
    {position : UInt64} {env : HostEnvironment} {t t' : Nat} {xs : List Exchange}
    {infos : List ContainerInfo}
    (h : (phase.deployNodes settings patience position env).Runs t xs (some (.ok infos)) t') :
    infos.length = phase.layout.perHost.toNat ∧ (∀ info ∈ infos, Shown env.host xs info) ∧
      ∃ x ∈ xs, ∃ listing, x.call = composeCall settings phase env "ps -q" ∧
        x.reply = .ok listing ∧ infos.map ContainerInfo.id = listedIds listing := by
  obtain ⟨ids, ys, zs, _, rfl, deployed, read⟩ := Runs.of_bind_ok h
  obtain ⟨hids, shown⟩ := Container.awaitReady_ok read
  obtain ⟨count, x, hx, listing, hcall, reply, rfl⟩ := phase.deploy_ok deployed
  refine ⟨?_, fun info hi => (shown info hi).mono (List.suffix_append ..).isInfix,
    x, List.mem_append_left _ hx, listing, hcall, reply, hids⟩
  rw [← count, ← hids, List.length_map]

end Rollout
