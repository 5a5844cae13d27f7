/-
What a listen address is made of, and which addresses are local.

The colon before the port is the last one, so a host with colons stands in brackets. What is wrong with an
address is wrong with its port if the host is well formed.

* `splitLastColon_append`, `of_splitLastColon`: the last colon of a text;
* `split_plain`, `split_bracketed`: what a well-formed host and any text behind it split into;
* `Splits`, `split_eq_ok_iff`: the addresses of a host and a port;
* `LocalHost`, `public_address_is_never_local`: the addresses that are local, and those without an answer.
-/
import Mathlib.Data.List.TakeWhile
import Mathlib.Data.List.TakeDrop
import TapeMachine.Net.ListenAddress
import TapeMachine.Proofs.Net.Ip

namespace TapeMachine.ListenAddress

/-! ### Cutting at a sign -/

theorem span_append {c : UInt8} {s : Bytes} (h : c ∉ s) (rest : Bytes) :
    (s ++ c :: rest).span (· ≠ c) = (s, c :: rest) := by
  have hall : ∀ x ∈ s, decide (x ≠ c) = true := fun x hx =>
    decide_eq_true fun hc => h (hc ▸ hx)
  rw [List.span_eq_takeWhile_dropWhile, List.takeWhile_append_of_pos hall, List.dropWhile_append_of_pos hall,
    List.takeWhile_cons_of_neg (by simp), List.dropWhile_cons_of_neg (by simp), List.append_nil]

/-- What is cut at a sign is not cut before its first place. -/
theorem of_span {c : UInt8} {s front back : Bytes} (h : s.span (· ≠ c) = (front, back)) :
    s = front ++ back ∧ c ∉ front ∧ ∀ b rest, back = b :: rest → b = c := by
  rw [List.span_eq_takeWhile_dropWhile, Prod.mk.injEq] at h
  obtain ⟨rfl, rfl⟩ := h
  refine ⟨List.takeWhile_append_dropWhile.symm, fun hmem => ?_, fun b rest hback => ?_⟩
  · simpa using List.mem_takeWhile_imp hmem
  · have hhead := List.head?_dropWhile_not (fun x => decide (x ≠ c)) s
    rw [hback] at hhead
    simpa using hhead

theorem splitLastColon_append {port : Bytes} (h : 58 ∉ port) (host : Bytes) :
    splitLastColon (host ++ 58 :: port) = some (host, port) := by
  have hspan := span_append (List.mem_reverse.not.mpr h) host.reverse
  rw [splitLastColon, List.reverse_append, List.reverse_cons, List.append_assoc, List.singleton_append, hspan]
  simp

theorem of_splitLastColon {s host port : Bytes} (h : splitLastColon s = some (host, port)) :
    s = host ++ 58 :: port ∧ 58 ∉ port := by
  rw [splitLastColon] at h
  split at h
  · next port' b host' hspan =>
    cases h
    obtain ⟨hs, hport, hcolon⟩ := of_span hspan
    obtain rfl := hcolon b host' rfl
    refine ⟨?_, List.mem_reverse.not.mpr hport⟩
    rw [← s.reverse_reverse, hs, List.reverse_append, List.reverse_cons, List.append_assoc,
      List.singleton_append]
  · cases h

theorem not_mem_of_splitLastColon {s : Bytes} (h : splitLastColon s = none) : 58 ∉ s := by
  rw [splitLastColon] at h
  split at h
  · cases h
  · next port hspan =>
    obtain ⟨hs, hport, -⟩ := of_span hspan
    rw [← List.mem_reverse, hs, List.append_nil]
    exact hport

/-- The last colon of a text is in a part behind another one, if there is one. -/
theorem splitLastColon_append_of_mem {port : Bytes} (h : 58 ∈ port) (host : Bytes) :
    ∃ first last, port = first ++ 58 :: last ∧ 58 ∉ last ∧
      splitLastColon (host ++ 58 :: port) = some (host ++ 58 :: first, last) := by
  rcases hsplit : splitLastColon port with _ | ⟨first, last⟩
  · exact absurd h (not_mem_of_splitLastColon hsplit)
  · obtain ⟨rfl, hlast⟩ := of_splitLastColon hsplit
    refine ⟨first, last, rfl, hlast, ?_⟩
    rw [← splitLastColon_append hlast (host ++ 58 :: first), List.append_assoc, List.cons_append]

/-! ### Hosts and ports -/

/-- What is wrong with the text behind a host and a colon, if it is no port. -/
def portError? (port : Bytes) : Option Error :=
  if 58 ∈ port then some .tooManyColons
  else if 91 ∈ port then some .unexpectedOpen
  else if 93 ∈ port then some .unexpectedClose
  else none

/-- A port has no colons and no brackets. -/
def IsPort (port : Bytes) : Prop :=
  58 ∉ port ∧ 91 ∉ port ∧ 93 ∉ port

theorem portError?_of_mem {port : Bytes} (h : 58 ∈ port) : portError? port = some .tooManyColons :=
  if_pos h

theorem portError?_of_not_mem {port : Bytes} (h : 58 ∉ port) : portError? port =
    if 91 ∈ port then some .unexpectedOpen else if 93 ∈ port then some .unexpectedClose else none :=
  if_neg h

theorem IsPort.portError?_eq {port : Bytes} (h : IsPort port) : portError? port = none := by
  rw [portError?_of_not_mem h.1, if_neg h.2.1, if_neg h.2.2]

/-- A host without colons and brackets ends at the first colon. -/
theorem split_plain {host : Bytes} (hcolon : 58 ∉ host) (hopen : 91 ∉ host) (hclose : 93 ∉ host)
    (port : Bytes) : split (host ++ 58 :: port) = (portError? port).elim (.ok (host, port)) .error := by
  have hbracket : ∀ inner, host ++ 58 :: port ≠ 91 :: inner := by
    intro inner h
    rcases host with _ | ⟨c, host⟩
    · cases h
    · rw [List.cons_append, List.cons.injEq] at h
      exact hopen (h.1 ▸ List.mem_cons_self)
  have hsplit : ∀ {first last : Bytes}, splitLastColon (host ++ 58 :: port) = some (first, last) →
      split (host ++ 58 :: port) = if 58 ∈ first then .error .tooManyColons
        else if 91 ∈ port then .error .unexpectedOpen
        else if 93 ∈ port then .error .unexpectedClose else .ok (first, last) := by
    intro first last hlast
    rw [split, hlast]
    dsimp only
    split
    · next inner haddress => exact absurd haddress (hbracket inner)
    · simp [hopen, hclose]
  -- the last colon is the one behind the host unless what is behind it has a colon too
  by_cases hport : 58 ∈ port
  · obtain ⟨first, last, -, -, hlast⟩ := splitLastColon_append_of_mem hport host
    rw [hsplit hlast, portError?_of_mem hport, if_pos (by simp)]
    rfl
  · rw [hsplit (splitLastColon_append hport host), portError?_of_not_mem hport, if_neg hcolon]
    split_ifs <;> rfl

/-- A host in brackets ends at the closing one. -/
theorem split_bracketed {host : Bytes} (hopen : 91 ∉ host) (hclose : 93 ∉ host) (port : Bytes) :
    split (91 :: (host ++ 93 :: 58 :: port)) = (portError? port).elim (.ok (host, port)) .error := by
  have hsplit : ∀ {first last : Bytes},
      splitLastColon (91 :: (host ++ 93 :: 58 :: port)) = some (first, last) →
      split (91 :: (host ++ 93 :: 58 :: port)) = if port.length ≠ last.length then .error .tooManyColons
        else if 91 ∈ port then .error .unexpectedOpen
        else if 93 ∈ last then .error .unexpectedClose else .ok (host, last) := by
    intro first last hlast
    rw [split, hlast]
    dsimp only
    split
    · next inner hinner =>
      cases hinner
      rw [span_append hclose]
      simp [hopen]
    · next hbracket => exact absurd rfl (hbracket _)
  have haddress : 91 :: (host ++ 93 :: 58 :: port) = (91 :: (host ++ [93])) ++ 58 :: port := by simp
  -- here a colon too many shows by where the last one is: less is left behind it than behind the
  -- closing bracket
  by_cases hport : 58 ∈ port
  · obtain ⟨first, last, hparts, -, hlast⟩ := splitLastColon_append_of_mem hport (91 :: (host ++ [93]))
    have hlength : port.length ≠ last.length := by
      rw [hparts, List.length_append, List.length_cons]
      omega
    rw [← haddress] at hlast
    rw [hsplit hlast, portError?_of_mem hport, if_pos hlength]
    rfl
  · have hlast := splitLastColon_append hport (91 :: (host ++ [93]))
    rw [← haddress] at hlast
    rw [hsplit hlast, portError?_of_not_mem hport, if_neg (not_not_intro rfl)]
    split_ifs <;> rfl

/-- The addresses of a host and a port. A host with colons stands in brackets. -/
inductive Splits (host port : Bytes) : Bytes → Prop
  | plain (hcolon : 58 ∉ host) (hopen : 91 ∉ host) (hclose : 93 ∉ host)
      (hport : IsPort port) : Splits host port (host ++ 58 :: port)
  | bracketed (hopen : 91 ∉ host) (hclose : 93 ∉ host) (hport : IsPort port) :
      Splits host port (91 :: (host ++ 93 :: 58 :: port))

theorem of_ite_error {c : Prop} [Decidable c] {e : Error} {x : Except Error (Bytes × Bytes)}
    {r : Bytes × Bytes} (h : (if c then .error e else x) = .ok r) : ¬c ∧ x = .ok r := by
  split at h
  · cases h
  · next hc => exact ⟨hc, h⟩

theorem splits_of_bracket {inner host port : Bytes} (h : split (91 :: inner) = .ok (host, port)) :
    Splits host port (91 :: inner) := by
  rw [split] at h
  split at h
  · cases h
  next first last hlast =>
  obtain ⟨haddress, hcolon⟩ := of_splitLastColon hlast
  split at h
  rotate_left
  · next hbracket => exact absurd rfl (hbracket inner)
  next inner' hinner =>
  cases hinner
  split at h
  · cases h
  next name b behind hspan =>
  obtain ⟨rfl, hname, hclose⟩ := of_span hspan
  obtain rfl := hclose b behind rfl
  split at h
  · cases h
  next c rest =>
  obtain ⟨hlength, h⟩ := of_ite_error h
  obtain ⟨-, h⟩ := of_ite_error h
  obtain ⟨hopen, h⟩ := of_ite_error h
  obtain ⟨hport, h⟩ := of_ite_error h
  cases h
  -- the text behind the bracket ends where the port ends and is as long as the port with its colon
  have hbehind : c :: rest = 58 :: port := by
    have hsame : (91 :: (host ++ [93])) ++ (c :: rest) = first ++ 58 :: port := by
      rw [← haddress]
      simp
    exact List.append_inj_right' hsame (not_not.mp hlength)
  rw [hbehind] at hopen ⊢
  simp only [List.contains_iff_mem, List.mem_append, List.mem_cons, not_or] at hopen hport
  exact .bracketed hopen.1 hname ⟨hcolon, hopen.2.2.2, hport⟩

theorem splits_of_no_bracket {address host port : Bytes} (hbracket : ∀ inner, address ≠ 91 :: inner)
    (h : split address = .ok (host, port)) : Splits host port address := by
  rw [split] at h
  split at h
  · cases h
  next first last hlast =>
  obtain ⟨rfl, hcolon⟩ := of_splitLastColon hlast
  split at h
  · next inner haddress => exact absurd haddress (hbracket inner)
  obtain ⟨hfirst, h⟩ := of_ite_error h
  obtain ⟨hopen, h⟩ := of_ite_error h
  obtain ⟨hclose, h⟩ := of_ite_error h
  cases h
  simp only [List.contains_iff_mem, List.mem_append, List.mem_cons, not_or] at hfirst hopen hclose
  exact .plain hfirst hopen.1 hclose.1 ⟨hcolon, hopen.2.2, hclose.2.2⟩

/-- **An address splits into the host and the port that it is made of.** -/
theorem split_eq_ok_iff {address host port : Bytes} :
    split address = .ok (host, port) ↔ Splits host port address := by
  constructor
  · intro h
    by_cases hbracket : ∃ inner, address = 91 :: inner
    · obtain ⟨inner, rfl⟩ := hbracket
      exact splits_of_bracket h
    · exact splits_of_no_bracket (fun inner haddress => hbracket ⟨inner, haddress⟩) h
  · intro h
    cases h with
    | plain hcolon hopen hclose hport => rw [split_plain hcolon hopen hclose, hport.portError?_eq]; rfl
    | bracketed hopen hclose hport => rw [split_bracketed hopen hclose, hport.portError?_eq]; rfl

/-! ### Local addresses -/

/-- A host that can be reached only from this host or a private network: the text of such an address, or a
name that has addresses, all of them such. -/
def LocalHost (hosts : HostTable) (host : Bytes) : Prop :=
  host ≠ [] ∧
    ((∃ ip, Ip.Literal host ip ∧ ∃ block ∈ Ip.localBlocks, block.Holds ip) ∨
      (∀ ip, ¬Ip.Literal host ip) ∧ hosts host ≠ [] ∧
        ∀ ip ∈ hosts host, ∃ block ∈ Ip.localBlocks, block.Holds ip)

variable {hosts : HostTable} {address host port : Bytes}

theorem isLocal_of_error {e : Error} (h : split address = .error e) : isLocal hosts address = .error e := by
  rw [isLocal, h]

/-- An address with a host and a port has an answer. -/
theorem exists_isLocal (hosts : HostTable) (h : split address = .ok (host, port)) :
    ∃ answer : Bool, isLocal hosts address = .ok answer ∧ (answer = true ↔ LocalHost hosts host) := by
  rw [isLocal, h, LocalHost]
  dsimp only
  by_cases hempty : host = []
  · exact ⟨false, by rw [hempty]; rfl, by simp [hempty]⟩
  rw [if_neg (by rwa [List.isEmpty_iff])]
  rcases hread : Ip.parse? host with _ | ip
  · have hname : ∀ ip, ¬Ip.Literal host ip := fun ip hip => by
      rw [← Ip.parse?_eq_some_iff, hread] at hip
      cases hip
    refine ⟨_, rfl, ?_⟩
    simp [hempty, hname, Ip.isLocal_iff]
  · have hliteral : ∀ ip', Ip.Literal host ip' ↔ ip' = ip := fun ip' => by
      rw [← Ip.parse?_eq_some_iff, hread, Option.some_inj, eq_comm]
    refine ⟨_, rfl, ?_⟩
    simp [hempty, hliteral, Ip.isLocal_iff]

/-- The answer to an address whose host is the text of an address, if what is behind it is a port. -/
theorem isLocal_of_literal (h : split address = (portError? port).elim (.ok (host, port)) .error)
    {ip : Ip} (hip : Ip.parse? host = some ip) :
    isLocal hosts address = (portError? port).elim (.ok ip.isLocal) .error := by
  have hne : host.isEmpty ≠ true := by
    intro hempty
    rw [List.isEmpty_iff.mp hempty] at hip
    cases hip
  rw [isLocal, h]
  rcases portError? port with _ | e
  · dsimp only [Option.elim]
    rw [if_neg hne, hip]
  · rfl

/-- The text of four octets holds no sign but digits and dots. -/
theorem not_mem_dotted {c : UInt8} (hdigit : Number.isDigit c = false) (hdot : c ≠ 46) (a b d e : UInt8) :
    c ∉ Ip.dotted a b d e := by
  intro hmem
  rcases Ip.mem_dotted hmem with h | h
  · rw [hdigit] at h
    cases h
  · exact hdot h

/-- **A public address is never taken for local.** An address is local if it splits into a port and a host
that is, and it has no answer only if it does not split; four octets have the same answer on their own and
in brackets, behind the first groups of their block. -/
theorem public_address_is_never_local (hosts : HostTable) :
    (∀ address,
      (isLocal hosts address = .ok true ↔
        ∃ host port, Splits host port address ∧ LocalHost hosts host) ∧
      ((∃ e, isLocal hosts address = .error e) ↔ ¬∃ host port, Splits host port address)) ∧
    ∀ (a b c d : UInt8) (port : Bytes),
      isLocal hosts (Ip.dotted a b c d ++ 58 :: port)
        = isLocal hosts (91 :: ((utf8 "::ffff:" ++ Ip.dotted a b c d) ++ 93 :: 58 :: port)) := by
  refine ⟨fun address => ?_, fun a b c d port => ?_⟩
  · rcases hsplit : split address with e | ⟨host, port⟩
    · have hnone : ¬∃ host port, Splits host port address := by
        rintro ⟨host, port, hsplits⟩
        rw [split_eq_ok_iff.mpr hsplits] at hsplit
        cases hsplit
      rw [isLocal_of_error hsplit]
      refine ⟨⟨(nomatch ·), ?_⟩, fun _ => hnone, fun _ => ⟨e, rfl⟩⟩
      rintro ⟨host, port, hsplits, -⟩
      exact absurd ⟨host, port, hsplits⟩ hnone
    · -- an address has one host and one port, so the host that is local is the one it splits into
      have hunique : ∀ host' port', Splits host' port' address ↔ host' = host ∧ port' = port := by
        intro host' port'
        rw [← split_eq_ok_iff, hsplit, Except.ok.injEq, Prod.mk.injEq, eq_comm, @eq_comm _ port]
      obtain ⟨answer, hanswer, hlocal⟩ := exists_isLocal hosts hsplit
      simp [hunique, hanswer, hlocal]
  · have hcolon : 58 ∉ Ip.dotted a b c d := not_mem_dotted (by decide) (by decide) a b c d
    have hopen : 91 ∉ Ip.dotted a b c d := not_mem_dotted (by decide) (by decide) a b c d
    have hclose : 93 ∉ Ip.dotted a b c d := not_mem_dotted (by decide) (by decide) a b c d
    have hbehind : ∀ {x : UInt8}, x ∉ utf8 "::ffff:" → x ∉ Ip.dotted a b c d →
        x ∉ utf8 "::ffff:" ++ Ip.dotted a b c d := fun hfirst hrest hmem =>
      (List.mem_append.mp hmem).elim hfirst hrest
    rw [isLocal_of_literal (split_plain hcolon hopen hclose port) (Ip.parse?_dotted a b c d),
      isLocal_of_literal
        (split_bracketed (hbehind (by decide) hopen) (hbehind (by decide) hclose) port)
        (Ip.parse?_mapped a b c d)]

end TapeMachine.ListenAddress
