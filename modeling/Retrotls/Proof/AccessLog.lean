import Retrotls.Proof.Address
import Retrotls.Proof.Headers
import Retrotls.Spec.AccessLog

/-!
# What an access line says

* `access_lines`: **the access line of a request is read back as its fields**, whatever the
  client sends: no request writes a field, or a line, of its own. A failure has its own line.
* `log_access_iff`: for `logging.rs`, exactly where the texts have no space.
-/

namespace Retrotls

/-- A character that ends a field: it is in no authority, no path and no query. -/
structure HttpCrate.Ends (H : HttpCrate) (c : Char) : Prop where
  graphic : isGraphic c = false
  path : H.pathChar c = false
  query : H.queryChar c = false

variable {H : HttpCrate} {T : Rustls} {c : Char} {raw : Str} {up : Upstream}

theorem HttpCrate.Ends.ne (hc : H.Ends c) {x : Char} (hx : isGraphic x = true) : x ≠ c := by
  rintro rfl
  rw [hc.graphic] at hx
  cases hx

theorem not_mem_of_graphic (hc : H.Ends c) {s : Str} (hs : ∀ x ∈ s, isGraphic x = true) : c ∉ s :=
  fun h => hc.ne (hs c h) rfl

/-! ## The fields -/

/-- A socket address is printed with graphic characters. -/
theorem display_graphic (addr : SocketAddr) : ∀ x ∈ addr.display, isGraphic x = true := by
  have haddr : ∀ x : Char, SocketAddr.isAddrChar x = true → isGraphic x = true := by
    intro x hx
    have hb := SocketAddr.isAddrChar_bounds hx
    simp only [isGraphic, Bool.and_eq_true, decide_eq_true_eq]
    omega
  have hip : ∀ x ∈ addr.ipText, isGraphic x = true := fun x hx =>
    haddr x (SocketAddr.ipText_chars addr x hx)
  have hdecimal : ∀ n, ∀ x ∈ decimal n, isGraphic x = true := fun n x hx =>
    haddr x (SocketAddr.isAddrChar_decimal hx)
  have hclose : ∀ x ∈ "]:".toList, isGraphic x = true := List.all_eq_true.1 (by decide)
  cases addr with
  | v4 ip port =>
    exact List.forall_mem_append.2 ⟨hip, List.forall_mem_cons.2 ⟨by decide, hdecimal _⟩⟩
  | v6 ip port flowinfo scopeId =>
    have hscope : ∀ x ∈ if scopeId = 0 then [] else '%' :: decimal scopeId.toNat,
        isGraphic x = true := by
      split
      · exact fun x hx => absurd hx List.not_mem_nil
      · exact List.forall_mem_cons.2 ⟨by decide, hdecimal _⟩
    refine List.forall_mem_append.2 ⟨List.forall_mem_append.2 ⟨?_, hclose⟩, hdecimal _⟩
    exact List.forall_mem_append.2 ⟨List.forall_mem_cons.2 ⟨by decide, hip⟩, hscope⟩

theorem decimal_graphic (n : ℕ) : ∀ x ∈ decimal n, isGraphic x = true := by
  intro x hx
  have hb := SocketAddr.isAddrChar_bounds (SocketAddr.isAddrChar_decimal hx)
  simp only [isGraphic, Bool.and_eq_true, decide_eq_true_eq]
  omega

/-- A path and query that the crate stores. -/
theorem not_mem_data (hH : H.Documented) (hc : H.Ends c) {p : PathAndQuery} (hp : H.Stored p) :
    c ∉ p.data := by
  obtain ⟨hok, hfree⟩ := hp.ok hH
  rw [HttpCrate.pathAndQueryOk, hfree, Bool.and_eq_true, List.all_eq_true, List.all_eq_true] at hok
  intro h
  rw [← List.takeWhile_append_dropWhile (p := (· != '?')) (l := p.data), List.mem_append] at h
  rcases h with h | h
  · have hpath := hok.1 c h
    rw [hc.path] at hpath
    cases hpath
  · cases hd : p.data.dropWhile (· != '?') with
    | nil =>
      rw [hd] at h
      cases h
    | cons x q =>
      rw [hd] at h hok
      rcases List.mem_cons.1 h with rfl | h
      · -- it starts with the question mark
        have hmark := head_dropWhile (p := (· != '?')) (s := p.data) (c := c) (by rw [hd]; rfl)
        have heq : c = '?' := by simpa using hmark
        exact hc.ne (x := '?') (by decide) heq.symm
      · have hquery := hok.2 c h
        rw [hc.query] at hquery
        cases hquery

theorem not_mem_targetText (hH : H.Documented) (hc : H.Ends c) {r : Uri} (hr : H.Holds r) :
    c ∉ targetText r := not_mem_data hH hc (p := ⟨targetText r⟩) (Or.inr (parse_targetText hH hr))

/-- The upstream, as its `Uri` is printed. -/
theorem not_mem_base (hH : H.Documented) (hc : H.Ends c) (hup : parseUpstream H raw = .ok up) :
    c ∉ up.base.toText := by
  obtain ⟨a, -, hs, ha, hat, -⟩ := parseUpstream_ok.1 hup
  have hheld := (parseUpstream_holds hup).path hH
  have hauth : ∀ x ∈ a.text, isGraphic x = true := fun x hx =>
    (authority_graphic hH hup (hat ▸ hx)).1
  rcases hbase : up.base with ⟨s, au, p⟩
  rw [hbase] at hs ha hheld
  dsimp only at hs ha hheld
  rw [hs, ha, toText_https]
  have hpre : c ∉ httpsPrefix := not_mem_of_graphic hc (List.all_eq_true.1 (by decide))
  have htext : c ∉ p.toText := by
    by_cases h : p.data.takeWhile (· != '?') = []
    · rw [PathAndQuery.toText_eq_slash h, List.mem_cons, not_or]
      exact ⟨fun heq => hc.ne (x := '/') (by decide) heq.symm, not_mem_data hH hc hheld⟩
    · rw [PathAndQuery.toText_eq h]
      exact not_mem_data hH hc hheld
  simp only [List.mem_append, not_or]
  exact ⟨hpre, not_mem_of_graphic hc hauth, htext⟩

/-! ## The lines -/

/-- The fields of the line of `Proxy::handle`. -/
def accessFields (clientAddr localAddr : SocketAddr) (req : Request) (status elapsedMs : ℕ)
    (up : Upstream) : List Str :=
  [clientAddr.display, localAddr.display, "->".toList, req.method, targetText req.uri,
    decimal status, decimal elapsedMs ++ "ms".toList, "upstream=".toList ++ up.base.toText]

theorem accessLine_eq (clientAddr localAddr : SocketAddr) (req : Request) (status elapsedMs : ℕ)
    (up : Upstream) : accessLine clientAddr localAddr req status elapsedMs up =
      [' '].intercalate (accessFields clientAddr localAddr req status elapsedMs up) := by
  simp [accessLine, accessFields, targetText, List.intercalate_cons_cons]

/-- No field has the character, if the method has not. -/
theorem not_mem_accessFields (hH : H.Documented) (hc : H.Ends c) (hup : parseUpstream H raw = .ok up)
    {req : Request} (hr : H.Holds req.uri) (hm : c ∉ req.method) (clientAddr localAddr : SocketAddr)
    (status elapsedMs : ℕ) :
    ∀ field ∈ accessFields clientAddr localAddr req status elapsedMs up, c ∉ field := by
  have hdisplay : ∀ addr : SocketAddr, c ∉ addr.display := fun addr =>
    not_mem_of_graphic hc (display_graphic addr)
  have hdecimal : ∀ n, c ∉ decimal n := fun n => not_mem_of_graphic hc (decimal_graphic n)
  have harrow : c ∉ "->".toList := not_mem_of_graphic hc (List.all_eq_true.1 (by decide))
  have hms : c ∉ "ms".toList := not_mem_of_graphic hc (List.all_eq_true.1 (by decide))
  have hupstream : c ∉ "upstream=".toList := not_mem_of_graphic hc (List.all_eq_true.1 (by decide))
  unfold accessFields
  simp only [List.forall_mem_cons, List.mem_append, not_or]
  exact ⟨hdisplay _, hdisplay _, harrow, hm, not_mem_targetText hH hc hr, hdecimal _,
    ⟨hdecimal _, hms⟩, ⟨hupstream, not_mem_base hH hc hup⟩, fun _ h => absurd h List.not_mem_nil⟩

/-- The lines of a level. -/
def linesAt (level : Level) (lines : List (Level × Str)) : List Str :=
  (lines.filter fun line => line.1 = level).map Prod.snd

/-- **What a request logs**: the failure, at `error`, and then the access line, at `info`, each
where its level is enabled, and nothing else. The access line has these fields, with the
status of the response that the client gets. -/
structure Logged (logged : Response × List (Level × Str)) (enabled : Level → Bool)
    (accessLog : Bool) (failure : Option Str) (resp : Response) (fields : ℕ → List Str) : Prop where
  response : logged.1 = resp
  order : logged.2 = (linesAt .error logged.2).map (.error, ·) ++ (linesAt .info logged.2).map (.info, ·)
  failures : linesAt .error logged.2 = if enabled .error then failure.toList else []
  count : (linesAt .info logged.2).length = (accessLog && enabled .info).toNat
  fields : ∀ line ∈ linesAt .info logged.2, line.splitOn ' ' = fields resp.status
  oneLine : ∀ line ∈ linesAt .info logged.2, '\n' ∉ line

/-- The access line, if it is logged. -/
def accessLines (enabled : Level → Bool) (accessLog : Bool) (line : Str) : List Str :=
  if accessLog && enabled .info then [line] else []

/-- The level filter looks at each line alone. -/
theorem filter_lines (enabled : Level → Bool) (accessLog : Bool) (failure : List Str) (line : Str) :
    (failure.map (Level.error, ·) ++ if accessLog then [(Level.info, line)] else []).filter
        (fun l => enabled l.1) =
      (if enabled .error then failure else []).map (Level.error, ·) ++
        (accessLines enabled accessLog line).map (Level.info, ·) := by
  unfold accessLines
  rw [List.filter_append, List.filter_map]
  cases accessLog <;> cases he : enabled .error <;> cases hi : enabled .info <;>
    simp [he, hi, Function.comp_def]

/-- The response is as without the log; the failure comes first, and the access line has the
status of the response. -/
theorem handleLogged_eq (enabled : Level → Bool) (errorText : ForwardError → Str) (accessLog : Bool)
    (net : Net) (req : Request) (up : Upstream) (clientAddr localAddr : SocketAddr) (elapsedMs : ℕ) :
    handleLogged H T enabled errorText accessLog net req up clientAddr localAddr elapsedMs =
      (handle H T net req up,
        (if enabled .error then (failureLine errorText (forward H T net req up)).toList else []).map
            (Level.error, ·) ++
          (accessLines enabled accessLog (accessLine clientAddr localAddr req
            (handle H T net req up).status elapsedMs up)).map (Level.info, ·)) := by
  unfold handleLogged handle
  generalize forward H T net req up = answer
  dsimp only
  rw [filter_lines]
  cases answer with
  | ok resp =>
    dsimp only
    split <;> rfl
  | error err => rfl

/-- The lines of two levels, taken apart again. -/
theorem linesAt_append (errors infos : List Str) :
    linesAt .error (errors.map (.error, ·) ++ infos.map (.info, ·)) = errors ∧
      linesAt .info (errors.map (.error, ·) ++ infos.map (.info, ·)) = infos := by
  unfold linesAt
  constructor
  · simp [List.filter_map, Function.comp_def]
  · simp [List.filter_map, Function.comp_def]

/-- **The log says what happened.** For every request, upstream and answer of the network, a
failure is logged, and the access line is read back as its fields: nothing in the request ends
a field or the line. -/
theorem access_lines (hH : H.Documented) (hspace : H.Ends ' ') (hline : H.Ends '\n')
    (hup : parseUpstream H raw = .ok up) {req : Request} (hr : H.Holds req.uri)
    (hm : ' ' ∉ req.method ∧ '\n' ∉ req.method) (enabled : Level → Bool)
    (errorText : ForwardError → Str) (accessLog : Bool) (net : Net)
    (clientAddr localAddr : SocketAddr) (elapsedMs : ℕ) :
    Logged (handleLogged H T enabled errorText accessLog net req up clientAddr localAddr elapsedMs)
      enabled accessLog (failureLine errorText (forward H T net req up)) (handle H T net req up)
      fun status => accessFields clientAddr localAddr req status elapsedMs up := by
  have hfree : ∀ status, ∀ field ∈ accessFields clientAddr localAddr req status elapsedMs up,
      ' ' ∉ field ∧ '\n' ∉ field := fun status field hf =>
    ⟨not_mem_accessFields hH hspace hup hr hm.1 clientAddr localAddr status elapsedMs field hf,
      not_mem_accessFields hH hline hup hr hm.2 clientAddr localAddr status elapsedMs field hf⟩
  rw [handleLogged_eq]
  set line := accessLine clientAddr localAddr req (handle H T net req up).status elapsedMs up with hl
  set errors := if enabled .error then
    (failureLine errorText (forward H T net req up)).toList else []
  obtain ⟨herror, hinfo⟩ := linesAt_append errors (accessLines enabled accessLog line)
  have hmem : ∀ l ∈ accessLines enabled accessLog line, l = line := fun l hl =>
    List.mem_singleton.1 (List.mem_ite_nil_right.1 hl).2
  constructor
  · rfl
  · rw [herror, hinfo]
  · rw [herror]
  · rw [hinfo, accessLines]
    cases accessLog && enabled .info <;> rfl
  · intro l h
    rw [hinfo] at h
    rw [hmem l h, hl, accessLine_eq]
    exact (splitOn_intercalate_iff (List.cons_ne_nil _ _)).2 fun field hf => (hfree _ field hf).1
  · intro l h
    rw [hinfo] at h
    rw [hmem l h, hl, accessLine_eq]
    exact not_mem_intercalate (by decide) fun field hf => (hfree _ field hf).2

theorem httpCrate_ends_space : httpCrate.Ends ' ' := ⟨by decide, by decide, by decide⟩

theorem httpCrate_ends_line : httpCrate.Ends '\n' := ⟨by decide, by decide, by decide⟩

/-- A client on the same host. -/
def loopClient : SocketAddr := .v4 0x7f000001 50000

def loopListener : SocketAddr := .v4 0x7f000001 8080

/-- The levels that are written at `info`, and what is said of a failure. -/
def allLevels (_ : Level) : Bool := true

def failureText (_ : ForwardError) : Str := "connection refused".toList

theorem access_lines_get :
    Logged (handleLogged httpCrate rustls allLevels failureText true closeNet (getRequest v1Test)
        apiUpstream loopClient loopListener 7) allLevels true
      (failureLine failureText (forward httpCrate rustls closeNet (getRequest v1Test) apiUpstream))
      (handle httpCrate rustls closeNet (getRequest v1Test) apiUpstream) fun status =>
        accessFields loopClient loopListener (getRequest v1Test) status 7 apiUpstream :=
  access_lines httpCrate_documented httpCrate_ends_space httpCrate_ends_line parse_apiBase
    holds_v1Test ⟨by decide, by decide⟩ allLevels failureText true closeNet loopClient loopListener 7

/-! ## The line of `log_access` -/

namespace LoggingRs

def accessFields (event : AccessLogEvent) : List Str :=
  [event.timestamp, event.clientAddr.display, "->".toList, event.localBind.display, event.method,
    event.path, decimal event.statusCode, decimal event.latencyMs ++ "ms".toList,
    "upstream=".toList ++ event.upstream]

/-- Nothing checks the texts of the event: the fields are read back exactly where none of the
texts has a space. -/
theorem log_access_iff (event : AccessLogEvent) :
    (accessLine event).splitOn ' ' = accessFields event ↔
      ' ' ∉ event.timestamp ∧ ' ' ∉ event.method ∧ ' ' ∉ event.path ∧ ' ' ∉ event.upstream := by
  have hline : accessLine event = [' '].intercalate (accessFields event) := by
    simp [accessLine, accessFields, List.intercalate_cons_cons]
  have hfree : ∀ {s : Str}, (∀ x ∈ s, isGraphic x = true) → ' ' ∉ s := fun hs h =>
    absurd (hs ' ' h) (by decide)
  have hdisplay : ∀ addr : SocketAddr, ' ' ∉ addr.display := fun addr => hfree (display_graphic addr)
  have hdecimal : ∀ n, ' ' ∉ decimal n := fun n => hfree (decimal_graphic n)
  have hne : accessFields event ≠ [] := List.cons_ne_nil _ _
  rw [hline, splitOn_intercalate_iff hne]
  simp [accessFields, hdisplay, hdecimal]

end LoggingRs

end Retrotls
