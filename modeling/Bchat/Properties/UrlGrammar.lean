import Bchat.Config.Community

/-!
# The grammar of URLs

`parse_url` scans a URL from left to right: the protocol, the host, a port if a colon follows, a
path if a slash follows. It reads the text of the grammar `proto://host[:port][/path]`, and does not
look at what else may stand between the host or the port and the end.
-/

namespace Bchat.Config

open Bencode List

variable {rest host url : Bytes}

/-! ## The grammar -/

def isHostChar (c : UInt8) : Bool :=
  (ascii '0' ≤ c && c ≤ ascii '9') || (ascii 'a' ≤ c && c ≤ ascii 'z') ||
    (ascii 'A' ≤ c && c ≤ ascii 'Z') || c == ascii '-'

structure IsHost (host : Bytes) : Prop where
  chars : ∀ c ∈ host, isHostChar c = true ∨ c = ascii '.'
  long : 4 ≤ host.length
  dot : ascii '.' ∈ host
  leading : ¬bytes "." <+: host
  adjacent : ¬bytes ".." <:+: host
  trailing : ¬bytes "." <:+ host

def decimalValue (ds : Bytes) : Nat := Nat.ofDigits 10 (ds.reverse.map fun b => b.toNat - 48)

/-- A port with its colon, or nothing. -/
inductive IsPort : Bytes → Prop
  | absent : IsPort []
  | digits {ds : Bytes} (nonempty : ds ≠ []) (digits : ∀ c ∈ ds, isDigit c = true)
      (fits : decimalValue ds < 2 ^ 16) : IsPort (ascii ':' :: ds)

structure UrlParts where
  name : Bytes
  host : Bytes
  port : Bytes
  rest : Bytes

namespace UrlParts

def text (p : UrlParts) : Bytes := p.name ++ bytes "://" ++ (p.host ++ (p.port ++ p.rest))

structure WellFormed (p : UrlParts) : Prop where
  name : stringIequal p.name (bytes "http") = true ∨ stringIequal p.name (bytes "https") = true
  host : IsHost p.host
  port : IsPort p.port

def HasPath (p : UrlParts) : Prop := p.rest = [] ∨ bytes "/" <+: p.rest

def Trails (p : UrlParts) : Prop :=
  ∃ c t, p.rest = c :: t ∧ c ≠ ascii '/' ∧
    if p.port = [] then isHostChar c = false ∧ c ≠ ascii '.' ∧ c ≠ ascii ':' else isDigit c = false

def proto (p : UrlParts) : Bytes :=
  if stringIequal p.name (bytes "http") then bytes "http://" else bytes "https://"

/-- The port as a number, unless it is the protocol's own. -/
def portValue (p : UrlParts) : Option Nat :=
  match p.port with
  | [] => none
  | _ :: ds =>
    if (decimalValue ds = 80 ∧ p.proto = bytes "http://") ∨
        (decimalValue ds = 443 ∧ p.proto = bytes "https://") then none
    else some (decimalValue ds)

def path (p : UrlParts) : Option Bytes :=
  if 1 < p.rest.length ∧ bytes "/" <+: p.rest then some p.rest else none

def parsed (p : UrlParts) : ParsedUrl := ⟨p.proto, p.host.map lowerCase, p.portValue, p.path⟩

def canonical (p : UrlParts) : Bytes := p.proto ++ p.host.map lowerCase ++ portSuffix p.portValue

end UrlParts

/-! ## Bytes -/

lemma forall_byte {p : UInt8 → Prop} (h : ∀ n < 256, p (UInt8.ofNat n)) (c : UInt8) : p c := by
  have hc := h c.toNat c.toNat_lt
  rwa [UInt8.ofNat_toNat] at hc

lemma isHostChar_lowerCase (c : UInt8) : isHostChar (lowerCase c) = isHostChar c := by
  revert c
  exact forall_byte (by decide +kernel)

lemma lowerCase_eq_dot (c : UInt8) : lowerCase c = ascii '.' ↔ c = ascii '.' := by
  revert c
  exact forall_byte (by decide +kernel)

lemma lowerCase_lowerCase (c : UInt8) : lowerCase (lowerCase c) = lowerCase c := by
  revert c
  exact forall_byte (by decide +kernel)

lemma map_lowerCase_lowerCase (s : Bytes) : (s.map lowerCase).map lowerCase = s.map lowerCase := by
  rw [map_map]
  exact map_congr_left fun c _ => lowerCase_lowerCase c

lemma isHostChar_iff (c : UInt8) : isHostChar c = true ↔
    ((ascii '0' ≤ c ∧ c ≤ ascii '9') ∨ (ascii 'a' ≤ c ∧ c ≤ ascii 'z') ∨ c = ascii '-') ∨
      (ascii 'A' ≤ c ∧ c ≤ ascii 'Z') := by
  simp only [isHostChar, Bool.or_eq_true, Bool.and_eq_true, decide_eq_true_eq, beq_iff_eq]
  tauto

lemma lowerCase_of_lower (c : UInt8) :
    ((ascii '0' ≤ c ∧ c ≤ ascii '9') ∨ (ascii 'a' ≤ c ∧ c ≤ ascii 'z') ∨ c = ascii '-') →
      lowerCase c = c := by
  revert c
  exact forall_byte (by decide +kernel)

lemma ne_dot_of_isHostChar {c : UInt8} (hc : isHostChar c = true) : c ≠ ascii '.' := by
  rintro rfl
  exact absurd hc (by decide)

/-! ## The host -/

def DotsApart : Bool → Bytes → Prop
  | _, [] => True
  | allow, c :: host =>
    (isHostChar c = true ∧ DotsApart true host) ∨
      (c = ascii '.' ∧ allow = true ∧ DotsApart false host)

def dotAllowed : Bool → Bytes → Bool
  | allow, [] => allow
  | _, c :: host => dotAllowed (isHostChar c) host

def HostStops (allow : Bool) (rest : Bytes) : Prop :=
  ∀ c t, rest = c :: t → isHostChar c = false ∧ ¬(allow = true ∧ c = ascii '.')

lemma readHost_hostChar {c : UInt8} (hc : isHostChar c = true) (acc : Bytes) (allow hasDot : Bool)
    (s : Bytes) :
    readHost acc allow hasDot (c :: s) = readHost (acc ++ [lowerCase c]) true hasDot s := by
  rw [readHost]
  split
  next hlow => rw [lowerCase_of_lower c hlow]
  next hlow =>
    have hup := ((isHostChar_iff c).1 hc).resolve_left hlow
    rw [if_pos hup, lowerCase, if_pos hup]

lemma readHost_dot (acc : Bytes) (hasDot : Bool) (s : Bytes) :
    readHost acc true hasDot (ascii '.' :: s) = readHost (acc ++ [ascii '.']) false true s := by
  rw [readHost, if_neg (by decide), if_neg (by decide), if_pos (by decide)]

lemma readHost_stop {allow : Bool} (h : HostStops allow rest) (acc : Bytes) (hasDot : Bool) :
    readHost acc allow hasDot rest = (acc, hasDot, rest) := by
  cases rest with
  | nil => rfl
  | cons c t =>
    obtain ⟨hchar, hdot⟩ := h c t rfl
    have hno : ¬_ := fun h => Bool.false_ne_true (hchar.symm.trans ((isHostChar_iff c).2 h))
    rw [not_or] at hno
    rw [readHost, if_neg hno.1, if_neg hno.2, if_neg hdot]

lemma readHost_append : ∀ {host : Bytes} {allow : Bool} (acc : Bytes) (hasDot : Bool),
    DotsApart allow host → HostStops (dotAllowed allow host) rest →
    readHost acc allow hasDot (host ++ rest) =
      (acc ++ host.map lowerCase, hasDot || host.contains (ascii '.'), rest)
  | [], allow, acc, hasDot, _, hstop => by
    rw [dotAllowed] at hstop
    rw [nil_append, readHost_stop hstop]
    simp
  | c :: host, allow, acc, hasDot, hdots, hstop => by
    rw [cons_append]
    obtain ⟨hc, hhost⟩ | ⟨rfl, rfl, hhost⟩ := hdots
    · rw [dotAllowed, hc] at hstop
      have hne : (ascii '.' == c) = false := beq_false_of_ne (ne_dot_of_isHostChar hc).symm
      rw [readHost_hostChar hc, readHost_append _ _ hhost hstop, contains_cons, hne]
      simp
    rw [readHost_dot, readHost_append _ _ hhost hstop, contains_cons]
    simp [lowerCase]
    decide

lemma exists_host_split : ∀ (allow : Bool) (s : Bytes), ∃ host rest, s = host ++ rest ∧
    DotsApart allow host ∧ HostStops (dotAllowed allow host) rest
  | allow, [] => ⟨[], [], rfl, trivial, fun _ _ h => nomatch h⟩
  | allow, c :: s => by
    by_cases hc : isHostChar c = true
    · obtain ⟨host, rest, rfl, hdots, hstop⟩ := exists_host_split true s
      exact ⟨c :: host, rest, rfl, .inl ⟨hc, hdots⟩, by rwa [dotAllowed, hc]⟩
    rw [Bool.not_eq_true] at hc
    by_cases hdot : allow = true ∧ c = ascii '.'
    · obtain ⟨host, rest, rfl, hdots, hstop⟩ := exists_host_split false s
      exact ⟨c :: host, rest, rfl, .inr ⟨hdot.2, hdot.1, hdots⟩, by rwa [dotAllowed, hc]⟩
    refine ⟨[], c :: s, rfl, trivial, fun c' t h => ?_⟩
    cases h
    exact ⟨hc, hdot⟩

lemma dotsApart_iff : ∀ {host : Bytes} {allow : Bool}, DotsApart allow host ↔
    (∀ c ∈ host, isHostChar c = true ∨ c = ascii '.') ∧
      (allow = false → ¬bytes "." <+: host) ∧ ¬bytes ".." <:+: host
  | [], allow => by
    refine iff_of_true trivial ⟨fun c h => (not_mem_nil h).elim, fun _ h => ?_, fun h => ?_⟩
    · exact absurd (prefix_nil.1 h) (by decide)
    · exact absurd (infix_nil.1 h) (by decide)
  | c :: host, allow => by
    have hdots : bytes ".." = [ascii '.', ascii '.'] := rfl
    have hdot : bytes "." = [ascii '.'] := rfl
    rw [DotsApart, dotsApart_iff, dotsApart_iff, forall_mem_cons, infix_cons_iff, hdots,
      hdot, cons_prefix_cons, cons_prefix_cons]
    by_cases hc : isHostChar c = true
    · have hne := ne_dot_of_isHostChar hc
      simp [hc, hne, hne.symm]
    by_cases hcd : c = ascii '.'
    · subst hcd
      cases allow <;> simp [hc]
    · simp [hc, hcd]

lemma isHost_iff : IsHost host ↔
    DotsApart false host ∧ 4 ≤ host.length ∧ ascii '.' ∈ host ∧ ¬bytes "." <:+ host := by
  rw [dotsApart_iff]
  exact ⟨fun h => ⟨⟨h.chars, fun _ => h.leading, h.adjacent⟩, h.long, h.dot, h.trailing⟩,
    fun ⟨⟨hc, hl, ha⟩, hlen, hdot, ht⟩ => ⟨hc, hlen, hdot, hl rfl, ha, ht⟩⟩

lemma dotsApart_map_lowerCase : ∀ {host : Bytes} {allow : Bool},
    DotsApart allow (host.map lowerCase) ↔ DotsApart allow host
  | [], _ => Iff.rfl
  | c :: host, allow => by
    rw [map_cons, DotsApart, DotsApart, isHostChar_lowerCase, lowerCase_eq_dot,
      dotsApart_map_lowerCase, dotsApart_map_lowerCase]

lemma dot_mem_map_lowerCase : ascii '.' ∈ host.map lowerCase ↔ ascii '.' ∈ host := by
  simp only [mem_map, lowerCase_eq_dot]
  exact ⟨fun ⟨_, h, hc⟩ => hc ▸ h, fun h => ⟨_, h, rfl⟩⟩

lemma dot_suffix_map_lowerCase : bytes "." <:+ host.map lowerCase ↔ bytes "." <:+ host := by
  have hdot : bytes "." = [ascii '.'] := rfl
  rw [hdot]
  cases host using reverseRecOn with
  | nil => rfl
  | append_singleton host c => simpa using eq_comm.trans ((lowerCase_eq_dot c).trans eq_comm)

lemma isHost_map_lowerCase : IsHost (host.map lowerCase) ↔ IsHost host := by
  rw [isHost_iff, isHost_iff, dotsApart_map_lowerCase, length_map, dot_mem_map_lowerCase,
    dot_suffix_map_lowerCase]

lemma dotAllowed_of_trailing : ∀ {host : Bytes} {allow : Bool}, DotsApart allow host →
    host ≠ [] → ¬bytes "." <:+ host → dotAllowed allow host = true
  | [], _, _, hne, _ => absurd rfl hne
  | [c], _, hdots, _, ht => by
    obtain ⟨hc, -⟩ | ⟨rfl, -, -⟩ := hdots
    · exact hc
    · exact absurd (suffix_refl _) ht
  | c :: d :: host, _, hdots, _, ht => by
    have htail : ¬bytes "." <:+ d :: host := fun h => ht (h.trans (suffix_cons _ _))
    rw [dotAllowed]
    obtain ⟨hc, hhost⟩ | ⟨rfl, -, hhost⟩ := hdots
    · rw [hc]
      exact dotAllowed_of_trailing hhost (by simp) htail
    · exact dotAllowed_of_trailing hhost (by simp) htail

/-! ## The port -/

def PortStops (port rest : Bytes) : Prop :=
  ∀ c t, rest = c :: t → if port = [] then c ≠ ascii ':' else isDigit c = false

lemma decodeNat_append {ds : Bytes} (hne : ds ≠ []) (hds : ∀ c ∈ ds, isDigit c = true)
    (hstop : ∀ c t, rest = c :: t → isDigit c = false) :
    decodeNat (ds ++ rest) = some (decimalValue ds, rest) := by
  have hrest : rest.takeWhile isDigit = [] ∧ rest.dropWhile isDigit = rest := by
    cases rest with
    | nil => exact ⟨rfl, rfl⟩
    | cons c t => simp [hstop c t rfl]
  have htake : (ds ++ rest).takeWhile isDigit = ds := by
    rw [takeWhile_append_of_pos hds, hrest.1, append_nil]
  have hdrop : (ds ++ rest).dropWhile isDigit = rest := by rw [dropWhile_append_of_pos hds, hrest.2]
  unfold decodeNat
  simp only [htake, hdrop]
  rw [if_neg (by simpa using hne), decimalValue]

lemma decodeNat_inv {s : Bytes} {n : Nat} (h : decodeNat s = some (n, rest)) :
    ∃ ds, s = ds ++ rest ∧ ds ≠ [] ∧ (∀ c ∈ ds, isDigit c = true) ∧
      (∀ c t, rest = c :: t → isDigit c = false) ∧ n = decimalValue ds := by
  unfold decodeNat at h
  dsimp only at h
  split at h
  · cases h
  next hne =>
    cases h
    refine ⟨s.takeWhile isDigit, takeWhile_append_dropWhile.symm, by simpa using hne,
      fun c hc => mem_takeWhile_imp hc, fun c t hrest => ?_, rfl⟩
    have := head?_dropWhile_not isDigit s
    rw [hrest] at this
    simpa using this

variable {p : UrlParts}

lemma readPort_append (hport : IsPort p.port) (hstop : PortStops p.port p.rest) :
    readPort p.proto (p.port ++ p.rest) = .ok (p.portValue, p.rest) := by
  obtain ⟨name, host, port, rest⟩ := p
  cases hport with
  | absent =>
    rw [nil_append]
    cases rest with
    | nil => rfl
    | cons c t =>
      rw [readPort, if_neg (hstop c t rfl)]
      rfl
  | digits hne hds hfits =>
    rw [cons_append, readPort, if_pos rfl, decodeNat_append hne hds hstop]
    dsimp only
    rw [if_pos hfits, UrlParts.portValue]
    dsimp only
    split <;> rfl

lemma readPort_inv {proto s : Bytes} {port : Option Nat} (h : readPort proto s = .ok (port, rest)) :
    ∃ text, s = text ++ rest ∧ IsPort text ∧ PortStops text rest := by
  unfold readPort at h
  split at h
  · cases h
    exact ⟨[], rfl, .absent, fun _ _ h => nomatch h⟩
  next c t =>
    split at h
    next hc =>
      split at h
      next n rest' hdec =>
        obtain ⟨ds, rfl, hne, hds, hstop, rfl⟩ := decodeNat_inv hdec
        split at h
        next hfits =>
          have hrest : rest' = rest := by split at h <;> cases h <;> rfl
          subst hrest hc
          exact ⟨ascii ':' :: ds, rfl, .digits hne hds hfits, hstop⟩
        · cases h
      · cases h
    next hc =>
      cases h
      refine ⟨[], rfl, .absent, fun c' t' h => ?_⟩
      cases h
      exact hc

/-! ## The URL -/

def UrlParts.Separated (p : UrlParts) : Prop :=
  HostStops true (p.port ++ p.rest) ∧ PortStops p.port p.rest

lemma separated_iff (hport : IsPort p.port) : p.Separated ↔ p.HasPath ∨ p.Trails := by
  obtain ⟨name, host, port, rest⟩ := p
  unfold UrlParts.Separated UrlParts.HasPath UrlParts.Trails HostStops PortStops
  have hslash : bytes "/" = [ascii '/'] := rfl
  cases rest with
  | nil =>
    refine iff_of_true ⟨fun c t h => ?_, fun _ _ h => nomatch h⟩ (.inl (.inl rfl))
    cases hport with
    | absent => cases h
    | digits =>
      cases h
      decide
  | cons c t =>
    rw [hslash, cons_prefix_cons]
    by_cases hc : c = ascii '/'
    · subst hc
      refine iff_of_true ⟨fun c t h => ?_, fun c t h => ?_⟩ (.inl (.inr ⟨rfl, nil_prefix⟩))
      · cases hport <;> cases h <;> decide
      · cases h
        split <;> decide
    cases hport with
    | absent => simp [hc, Ne.symm hc, and_assoc]
    | digits =>
      have hcolon : isHostChar (ascii ':') = false ∧ ascii ':' ≠ ascii '.' := by decide
      simp [hc, Ne.symm hc, hcolon]

lemma colon_notMem_of_name {name : Bytes}
    (h : stringIequal name (bytes "http") = true ∨ stringIequal name (bytes "https") = true) :
    ascii ':' ∉ name := by
  intro hmem
  have hlow : lowerCase (ascii ':') ∈ name.map lowerCase := mem_map_of_mem hmem
  rw [stringIequal, stringIequal, beq_iff_eq, beq_iff_eq] at h
  obtain h | h := h <;> rw [h] at hlow <;> exact absurd hlow (by decide)

lemma readProto_text (hname : stringIequal p.name (bytes "http") = true ∨
    stringIequal p.name (bytes "https") = true) :
    readProto p.text = .ok (p.proto, p.host ++ (p.port ++ p.rest)) := by
  have hsplit : splitFirst (bytes "://") p.text = some (p.name, p.host ++ (p.port ++ p.rest)) :=
    splitFirst_append (colon_notMem_of_name hname)
  unfold readProto UrlParts.proto
  rw [hsplit]
  dsimp only
  split
  · rfl
  next hno => rw [if_pos (hname.resolve_left hno)]

lemma readProto_inv {proto : Bytes} (h : readProto url = .ok (proto, rest)) :
    ∃ name, url = name ++ bytes "://" ++ rest ∧
      (stringIequal name (bytes "http") = true ∨ stringIequal name (bytes "https") = true) := by
  unfold readProto at h
  split at h
  next name rest' hsplit =>
    have htext := splitFirst_eq_some hsplit
    split at h
    next hname =>
      cases h
      exact ⟨name, htext, .inl hname⟩
    split at h
    next hname =>
      cases h
      exact ⟨name, htext, .inr hname⟩
    · cases h
  · cases h

lemma parseUrl_text (hwf : p.WellFormed) (hsep : p.Separated) : parseUrl p.text = .ok p.parsed := by
  obtain ⟨hdots, hlen, hdot, ht⟩ := isHost_iff.1 hwf.host
  have hne : p.host ≠ [] := ne_nil_of_mem hdot
  have hstop : HostStops (dotAllowed false p.host) (p.port ++ p.rest) := by
    rw [dotAllowed_of_trailing hdots hne ht]
    exact hsep.1
  have hcheck : ¬((p.host.map lowerCase).length < 4 ∨ p.host.contains (ascii '.') = false ∨
      bytes "." <:+ p.host.map lowerCase) := by
    rw [length_map, dot_suffix_map_lowerCase]
    simp [hdot, ht, hlen]
  unfold parseUrl
  rw [readProto_text hwf.name, ok_bind]
  dsimp only
  rw [readHost_append [] false hdots hstop]
  rw [nil_append, Bool.false_or, if_neg hcheck]
  rw [readPort_append hwf.port hsep.2]
  rfl

/-- **What `parse_url` accepts**, and its result in terms of the parts. -/
lemma parseUrl_iff {r : ParsedUrl} : parseUrl url = .ok r ↔
    ∃ p : UrlParts, p.text = url ∧ p.WellFormed ∧ p.Separated ∧ r = p.parsed := by
  constructor
  · intro haccept
    obtain ⟨⟨proto, s⟩, hproto, h⟩ := bind_eq_ok.1 haccept
    obtain ⟨name, rfl, hname⟩ := readProto_inv hproto
    obtain ⟨host, s', rfl, hdots, hstop⟩ := exists_host_split false s
    dsimp only at h
    rw [readHost_append [] false hdots hstop] at h
    split at h
    · cases h
    next hcheck =>
      obtain ⟨⟨port, rest⟩, hport, -⟩ := bind_eq_ok.1 h
      obtain ⟨text, rfl, hisPort, hportStop⟩ := readPort_inv hport
      have hhost : IsHost host := by
        rw [nil_append, length_map, dot_suffix_map_lowerCase, not_or, not_or] at hcheck
        exact isHost_iff.2 ⟨hdots, Nat.le_of_not_lt hcheck.1, by simpa using hcheck.2.1, hcheck.2.2⟩
      have hwf : UrlParts.WellFormed ⟨name, host, text, rest⟩ := ⟨hname, hhost, hisPort⟩
      have hsep : UrlParts.Separated ⟨name, host, text, rest⟩ := by
        refine ⟨?_, hportStop⟩
        rw [dotAllowed_of_trailing hdots (ne_nil_of_mem hhost.dot) hhost.trailing] at hstop
        exact hstop
      refine ⟨⟨name, host, text, rest⟩, rfl, hwf, hsep, ?_⟩
      exact Except.ok.inj (haccept.symm.trans (parseUrl_text hwf hsep))
  · rintro ⟨p, rfl, hwf, hsep, rfl⟩
    exact parseUrl_text hwf hsep

lemma rest_unique {q : UrlParts} (hp : p.WellFormed) (hq : q.WellFormed) (hps : p.Separated)
    (hqs : q.Separated) (htext : p.text = q.text) : p.rest = q.rest ∧ p.port = q.port := by
  have hproto := (readProto_text hp.name).symm.trans (htext ▸ readProto_text hq.name)
  simp only [Except.ok.injEq, Prod.mk.injEq] at hproto
  have hscan : ∀ {p : UrlParts}, p.WellFormed → p.Separated →
      (readHost [] false false (p.host ++ (p.port ++ p.rest))).2.2 = p.port ++ p.rest := by
    intro p hp hps
    obtain ⟨hdots, -, hdot, ht⟩ := isHost_iff.1 hp.host
    rw [readHost_append [] false hdots]
    rw [dotAllowed_of_trailing hdots (ne_nil_of_mem hdot) ht]
    exact hps.1
  have hafter : p.port ++ p.rest = q.port ++ q.rest := by
    rw [← hscan hp hps, ← hscan hq hqs, hproto.2]
  have hport := readPort_append hp.port hps.2
  rw [hafter, hproto.1, readPort_append hq.port hqs.2] at hport
  simp only [Except.ok.injEq, Prod.mk.injEq] at hport
  rw [hport.2] at hafter
  exact ⟨hport.2.symm, append_cancel_right hafter⟩

/-! ## The canonical form -/

lemma canonicalUrl_iff {v : Bytes} : canonicalUrl url = .ok v ↔
    ∃ p : UrlParts, p.text = url ∧ p.WellFormed ∧ p.Separated ∧ p.path = none ∧
      p.canonical.length ≤ baseUrlMaxLength ∧ v = p.canonical := by
  constructor
  · intro h
    obtain ⟨r, hr, h⟩ := bind_eq_ok.1 h
    obtain ⟨p, htext, hwf, hsep, rfl⟩ := parseUrl_iff.1 hr
    dsimp only at h
    split at h
    · cases h
    next hpath =>
      split at h
      · cases h
      next hlen =>
        cases h
        exact ⟨p, htext, hwf, hsep, by simpa [UrlParts.parsed] using hpath,
          Nat.le_of_not_lt hlen, rfl⟩
  rintro ⟨p, rfl, hwf, hsep, hpath, hlen, rfl⟩
  unfold canonicalUrl
  rw [parseUrl_text hwf hsep, ok_bind]
  have hsome : ¬p.parsed.path.isSome = true := by simp [UrlParts.parsed, hpath]
  rw [if_neg hsome]
  exact if_neg (Nat.not_lt.mpr hlen)

def UrlParts.canonicalParts (p : UrlParts) : UrlParts where
  name := if stringIequal p.name (bytes "http") then bytes "http" else bytes "https"
  host := p.host.map lowerCase
  port := portSuffix p.portValue
  rest := []

lemma proto_canonicalParts (p : UrlParts) : p.canonicalParts.proto = p.proto := by
  unfold UrlParts.proto UrlParts.canonicalParts
  dsimp only
  by_cases h : stringIequal p.name (bytes "http") = true
  · rw [if_pos h, if_pos h, if_pos (by decide)]
  · rw [if_neg h, if_neg h, if_neg (by decide)]

lemma text_canonicalParts (p : UrlParts) : p.canonicalParts.text = p.canonical := by
  have hproto : p.canonicalParts.name ++ bytes "://" = p.proto := by
    unfold UrlParts.proto UrlParts.canonicalParts
    dsimp only
    split <;> decide
  rw [UrlParts.text, hproto, UrlParts.canonical, append_assoc]
  simp [UrlParts.canonicalParts]

lemma decimalValue_encodeNat (n : Nat) : decimalValue (encodeNat n) = n := ofDigits_encodeNat n

lemma portValue_eq_some (hwf : p.WellFormed) {n : Nat} (h : p.portValue = some n) :
    n < 2 ^ 16 ∧ ¬((n = 80 ∧ p.proto = bytes "http://") ∨
        (n = 443 ∧ p.proto = bytes "https://")) := by
  have hport := hwf.port
  unfold UrlParts.portValue at h
  split at h
  · cases h
  next ds heq =>
    split at h
    · cases h
    next hown =>
      cases h
      rw [heq] at hport
      cases hport with
      | digits _ _ hfits => exact ⟨hfits, hown⟩

lemma isPort_portSuffix (hwf : p.WellFormed) : IsPort (portSuffix p.portValue) := by
  cases h : p.portValue with
  | none => exact .absent
  | some n =>
    refine .digits (encodeNat_ne_nil n) (encodeNat_isDigit n) ?_
    rw [decimalValue_encodeNat]
    exact (portValue_eq_some hwf h).1

lemma portValue_canonicalParts (hwf : p.WellFormed) : p.canonicalParts.portValue = p.portValue := by
  rw [UrlParts.portValue, proto_canonicalParts]
  cases h : p.portValue with
  | none => simp [UrlParts.canonicalParts, h, portSuffix]
  | some n =>
    simp only [UrlParts.canonicalParts, h, portSuffix, decimalValue_encodeNat]
    exact if_neg (portValue_eq_some hwf h).2

lemma wellFormed_canonicalParts (hwf : p.WellFormed) : p.canonicalParts.WellFormed := by
  refine ⟨?_, isHost_map_lowerCase.2 hwf.host, isPort_portSuffix hwf⟩
  unfold UrlParts.canonicalParts
  dsimp only
  split <;> decide

lemma canonicalUrl_canonical {v : Bytes} (h : canonicalUrl url = .ok v) :
    canonicalUrl v = .ok v := by
  obtain ⟨p, -, hwf, -, -, hlen, rfl⟩ := canonicalUrl_iff.1 h
  have hwf' := wellFormed_canonicalParts hwf
  have hcanon : p.canonicalParts.canonical = p.canonical := by
    rw [UrlParts.canonical, proto_canonicalParts, portValue_canonicalParts hwf, UrlParts.canonical]
    exact congrArg (fun host => p.proto ++ host ++ portSuffix p.portValue)
      (map_lowerCase_lowerCase p.host)
  exact canonicalUrl_iff.2 ⟨p.canonicalParts, text_canonicalParts p, hwf',
    (separated_iff hwf'.port).2 (.inl (.inl rfl)), rfl, hcanon ▸ hlen, hcanon.symm⟩

/-! ## The grammar and the scanner -/

/-- The scanner accepts a text exactly if it is a URL, as a base URL exactly if the path is missing
or a slash and the canonical form is not too long, and the canonical form is its own canonical form.
-/
structure KeepsGrammar (url : Bytes) : Prop where
  parse : (∃ r, parseUrl url = .ok r) ↔ ∃ p : UrlParts, p.text = url ∧ p.WellFormed ∧ p.HasPath
  canonical : (∃ v, canonicalUrl url = .ok v) ↔ ∃ p : UrlParts, p.text = url ∧ p.WellFormed ∧
    (p.rest = [] ∨ p.rest = bytes "/") ∧ p.canonical.length ≤ baseUrlMaxLength
  idempotent : ∀ v, canonicalUrl url = .ok v → canonicalUrl v = .ok v

lemma hasPath_of_base (h : p.rest = [] ∨ p.rest = bytes "/") : p.HasPath :=
  h.imp_right fun hslash => by rw [hslash]

lemma path_eq_none (hpath : p.HasPath) : p.path = none ↔ p.rest = [] ∨ p.rest = bytes "/" := by
  unfold UrlParts.path
  obtain h | ⟨t, ht⟩ := hpath
  · simp [h]
  have hslash : bytes "/" = [ascii '/'] := rfl
  rw [hslash] at ht ⊢
  rw [← ht]
  cases t <;> simp

lemma not_keepsGrammar_of_trails (hp : p.WellFormed) (htrails : p.Trails) :
    ¬KeepsGrammar p.text := by
  intro h
  have hsep := (separated_iff hp.port).2 (.inr htrails)
  obtain ⟨q, htext, hq, hpath⟩ := h.parse.1 ⟨_, parseUrl_text hp hsep⟩
  obtain ⟨hrest, -⟩ := rest_unique hp hq hsep ((separated_iff hq.port).2 (.inl hpath)) htext.symm
  obtain ⟨c, t, hc, hslash, -⟩ := htrails
  rw [UrlParts.HasPath, ← hrest, hc] at hpath
  obtain h | h := hpath
  · cases h
  · exact hslash (cons_prefix_cons.1 h).1.symm

/-- **The scanner keeps to the grammar exactly on the texts that do not trail off** after the host
or the port. -/
theorem url_grammar_iff (url : Bytes) :
    KeepsGrammar url ↔ ¬∃ p : UrlParts, p.text = url ∧ p.WellFormed ∧ p.Trails := by
  constructor
  · rintro h ⟨p, rfl, hwf, htrails⟩
    exact not_keepsGrammar_of_trails hwf htrails h
  intro hno
  have hsep : ∀ {p : UrlParts}, p.text = url → p.WellFormed → p.Separated → p.HasPath :=
    fun htext hwf hsep => ((separated_iff hwf.port).1 hsep).resolve_right
      fun htrails => hno ⟨_, htext, hwf, htrails⟩
  refine ⟨⟨?_, ?_⟩, ⟨?_, ?_⟩, fun v => canonicalUrl_canonical⟩
  · rintro ⟨r, hr⟩
    obtain ⟨p, htext, hwf, hs, -⟩ := parseUrl_iff.1 hr
    exact ⟨p, htext, hwf, hsep htext hwf hs⟩
  · rintro ⟨p, htext, hwf, hpath⟩
    exact ⟨_, parseUrl_iff.2 ⟨p, htext, hwf, (separated_iff hwf.port).2 (.inl hpath), rfl⟩⟩
  · rintro ⟨v, hv⟩
    obtain ⟨p, htext, hwf, hs, hnone, hlen, -⟩ := canonicalUrl_iff.1 hv
    exact ⟨p, htext, hwf, (path_eq_none (hsep htext hwf hs)).1 hnone, hlen⟩
  rintro ⟨p, htext, hwf, hbase, hlen⟩
  have hpath := hasPath_of_base hbase
  exact ⟨_, canonicalUrl_iff.2 ⟨p, htext, hwf, (separated_iff hwf.port).2 (.inl hpath),
    (path_eq_none hpath).2 hbase, hlen, rfl⟩⟩

/-- A query after the host and letters after the port are dropped without notice: these are taken
for the base URL of one server. -/
theorem trailing_text_accepted :
    canonicalUrl (bytes "https://example.com?room=a") = .ok (bytes "https://example.com") ∧
      canonicalUrl (bytes "https://example.com:443x") = .ok (bytes "https://example.com") ∧
      ¬KeepsGrammar (bytes "https://example.com?room=a") := by
  let p : UrlParts := ⟨bytes "https", bytes "example.com", [], bytes "?room=a"⟩
  have hhost : IsHost (bytes "example.com") := by constructor <;> decide +kernel
  have hwf : p.WellFormed := ⟨.inr (by decide), hhost, .absent⟩
  have htrails : p.Trails := ⟨ascii '?', bytes "room=a", rfl, by decide⟩
  exact ⟨by decide +kernel, by decide +kernel, not_keepsGrammar_of_trails hwf htrails⟩

end Bchat.Config
