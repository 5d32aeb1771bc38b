/-
# What is read off a container

The output of a container may be any text. What is read off it is not:

| reading | is |
| --- | --- |
| a port | decimal digits, the first one that of its transport |
| an identity | text without a line feed or an equals sign, with no blank at either end |

Main statements: `Container.readPorts_isPort` and `Container.identity?_isIdentity`.
-/

import Rollout.Proofs.Container.Identity
import Rollout.Proofs.Container.Ports

namespace Rollout

/-- A port of a transport: decimal digits, the first of them the transport's. So
there is at least one. -/
structure Transport.IsPort (t : Transport) (port : String) : Prop where
  digits : ∀ c ∈ port.toList, c.isDigit
  first : port.toList.head? = some t.digit

namespace Container

/-- An identity: one line without an equals sign and without a blank at either
end. -/
structure IsIdentity (id : String) : Prop where
  nonempty : id ≠ ""
  trimmed : Text.Trimmed id.toList
  noLineFeed : '\n' ∉ id.toList
  noEquals : '=' ∉ id.toList

/-- **The ports that are read** are one of each transport. -/
theorem readPorts_isPort {output : String} {ports : Ports} (h : readPorts output = .ok ports) :
    Transport.tcp.IsPort ports.tcp ∧ Transport.ws.IsPort ports.ws := by
  have one : OnePerTransport (nodePortSet output) ports := by
    rcases readPorts_cases output with ⟨ports', read, one⟩ | ⟨read, -⟩ | ⟨read, -⟩
    · obtain rfl := Except.ok.inj (h.symm.trans read)
      exact one
    · cases h.symm.trans read
    · cases h.symm.trans read
  have digits : ∀ p ∈ nodePortSet output, ∀ c ∈ p.toList, c.isDigit = true := by
    rintro p ⟨line, -, publishes⟩
    exact publishes.digits
  rw [one.exactly] at digits
  exact ⟨⟨digits _ (by simp), one.tcp⟩, ⟨digits _ (by simp), one.ws⟩⟩

/-- A marked line has no line feed in it. -/
theorem LastMarked.not_mem {logs line : List Char} (h : LastMarked logs line) : '\n' ∉ line := by
  obtain ⟨before, written, after, split, rfl, -, -⟩ := h
  have mem : written ∈ Text.lines logs := split ▸ List.mem_append_right before List.mem_cons_self
  exact fun hmem =>
    Text.not_mem_of_mem_lines mem ((Text.ControlSequence.strip_sublist written).mem hmem)

/-- **The identity that a log shows** is plain text on one line. -/
theorem identity?_isIdentity {logs id : String} (h : identity? logs = some id) :
    IsIdentity id := by
  obtain ⟨line, last, read, nonempty⟩ := identity?_eq_some.1 h
  have ending : ∃ tail, tail <:+ line ∧ '=' ∉ tail ∧ Text.TrimsTo tail id.toList := by
    rcases read with ⟨head, tail, rfl, free, trims⟩ | ⟨absent, trims⟩
    · exact ⟨tail, ⟨head ++ ['='], by simp⟩, free, trims⟩
    · exact ⟨line, List.suffix_rfl, absent, trims⟩
  obtain ⟨tail, suffix, free, trims⟩ := ending
  constructor
  case nonempty =>
    rintro rfl
    exact nonempty rfl
  case trimmed => exact trims.trimmed
  case noLineFeed => exact fun hmem => last.not_mem (suffix.mem (trims.subset hmem))
  case noEquals => exact fun hmem => free (trims.subset hmem)

end Container
end Rollout
