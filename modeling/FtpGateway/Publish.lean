import FtpGateway.MetricsServer
import FtpGateway.PyData
import FtpGateway.RotatorSeries

/-!
# From the endpoint to CloudWatch

The rest of `samples/cloudwatch_metrics.py`: `fetch_metrics`, `to_metric_data` and
`main`, which puts the data points to CloudWatch in batches. A run of `main` asks
for nothing but `put_metric_data`, so its history is the list of its calls.

What the gateway serves reaches CloudWatch as one data point for each series, in
order, and the exit code says whether all of it did (`scrape_publishes`). CloudWatch
tells metrics apart by their name and the set of their dimensions; no two points made
of the rendered series are the same to it (`data_points_distinct`).
-/

namespace FtpGateway

open Str Interact

/-! ## Dimensions -/

/-- A `--dimension`. -/
structure Dimension where
  name : Text
  value : Text
  name_ne : name ≠ []
  value_ne : value ≠ []
deriving DecidableEq

/-- `none` is an `ArgumentTypeError`. -/
def parseDimension (raw : Text) : Option Dimension :=
  match splitOnce '=' raw with
  | none => none
  | some (name, value) =>
      if h : name = [] ∨ value = [] then none
      else some ⟨name, value, fun hn => h (Or.inl hn), fun hv => h (Or.inr hv)⟩

def Dimension.item (d : Dimension) : Text × Text := (d.name, d.value)

/-! ## Data points -/

def metricUnits : List (Text × Text) :=
  [("ftp_gateway_sessions_active".toList, "Count".toList),
    ("ftp_gateway_uploads_active".toList, "Count".toList),
    ("ftp_gateway_pasv_ports_active".toList, "Count".toList),
    ("ftp_gateway_pasv_ports_capacity".toList, "Count".toList),
    ("ftp_gateway_sessions_total".toList, "Count".toList),
    ("ftp_gateway_upload_bytes_total".toList, "Bytes".toList),
    ("ftp_gateway_connections_rejected_total".toList, "Count".toList),
    ("ftp_gateway_uploads_started_total".toList, "Count".toList),
    ("ftp_gateway_uploads_completed_total".toList, "Count".toList),
    ("ftp_gateway_uploads_failed_total".toList, "Count".toList),
    ("ftp_gateway_backend_pasv_failures_total".toList, "Count".toList),
    ("ftp_gateway_backend_data_connection_failures_total".toList, "Count".toList),
    ("ftp_gateway_data_connections_rejected_total".toList, "Count".toList),
    ("ftp_gateway_backend_timeouts_total".toList, "Count".toList),
    ("ftp_gateway_session_idle_timeouts_total".toList, "Count".toList),
    ("ftp_gateway_backend_source_unhealthy".toList, "Count".toList),
    ("ftp_gateway_backend_source_transfers_active".toList, "Count".toList),
    ("ftp_gateway_backend_source_transfers_capacity".toList, "Count".toList),
    ("ftp_gateway_backend_source_transfers_total".toList, "Count".toList),
    ("ftp_gateway_backend_source_slot_timeouts_total".toList, "Count".toList)]

def maxMetricsPerCall : Nat := 1000

/-- The value is a double; the dimensions are left out if there are none. -/
structure Datum where
  metricName : Text
  value : Rat
  unit : Text
  dimensions : Option (List (Text × Text))
deriving DecidableEq

/-- The order of pairs of strings, by code points. -/
def itemLe (a b : Text × Text) : Bool := a.1 < b.1 || (a.1 = b.1 && !decide (b.2 < a.2))

/-- The labels go over the dimensions of the command line, but for empty ones. -/
def mergeLabels (dimensions : List Dimension) (labels : Labels) : List (Text × Text) :=
  (labels.mergeSort itemLe).foldl
    (fun merged (label, value) => if value ≠ [] then Py.dictSet label value merged else merged)
    (Py.dictUpdate [] (dimensions.map Dimension.item))

def toDatum (dimensions : List Dimension) (sample : Sample) : Datum where
  metricName := sample.name
  value := Py.nearestDouble sample.value
  unit := (metricUnits.lookup sample.name).getD "None".toList
  dimensions :=
    let merged := mergeLabels dimensions sample.labels
    if merged ≠ [] then some merged else none

def toMetricData (samples : List Sample) (dimensions : List Dimension) : List Datum :=
  samples.map (toDatum dimensions)

/-! ## The script -/

/-- The number a status starts with. -/
def statusCode (status : Text) : Nat := Py.digitsValue (status.takeWhile Char.isDigit)

/-- `none` is a `RequestException`: no response, or `raise_for_status` on an error.
`decode` is `response.text` of a body of type `text/plain` without a charset. -/
def fetchMetrics (decode : Bytes → Text) (response : Option Http.Response) :
    Option (List Sample) :=
  match response with
  | none => none
  | some r =>
      if 400 ≤ statusCode r.status ∧ statusCode r.status < 600 then none
      else some (parsePrometheusText (decode r.body))

/-- `put_metric_data` with its data, answered by whether it went through. -/
abbrev CloudWatch : Sig := ⟨List Datum, fun _ => Bool⟩

def putAll : List (List Datum) → Prog CloudWatch Empty Nat
  | [] => pure 0
  | batch :: batches => do
      if ← Prog.request (S := CloudWatch) batch then putAll batches else pure 1

/-- The exit code. -/
def main (fetched : Option (List Sample)) (dimensions : List Dimension) :
    Prog CloudWatch Empty Nat :=
  match fetched with
  | none => pure 1
  | some samples =>
      if samples = [] then pure 1
      else putAll (Py.slices maxMetricsPerCall (toMetricData samples dimensions))

/-- The calls go through the batches in order, up to the first that fails. -/
theorem run_putAll {env : Env CloudWatch} (hanswers : ∀ h r, ∃ a, env h r = some a)
    (batches : List (List Datum)) (h : History CloudWatch) :
    ∃ calls code, run env (putAll batches) h = (.ret code, h ++ calls) ∧
      calls.map Exchange.req <+: batches ∧
      ((code = 0 ∧ calls.map Exchange.req = batches ∧ ∀ call ∈ calls, call.ans = true) ∨
        (code = 1 ∧ ∃ accepted last, calls = accepted ++ [last] ∧ last.ans = false ∧
          ∀ call ∈ accepted, call.ans = true)) := by
  induction batches generalizing h with
  | nil =>
      exact ⟨[], 0, by simp [putAll, run], List.nil_prefix, Or.inl ⟨rfl, rfl, by simp⟩⟩
  | cons batch batches ih =>
      obtain ⟨a, ha⟩ := hanswers h batch
      cases a with
      | false =>
          refine ⟨[⟨batch, false⟩], 1, ?_, ?_, Or.inr ⟨rfl, [], _, rfl, rfl, by simp⟩⟩
          · simp [putAll, Prog.request, run, Prog.bind, ha]
          · exact List.cons_prefix_cons.mpr ⟨rfl, List.nil_prefix⟩
      | true =>
          obtain ⟨calls, code, hrun, hstart, hend⟩ := ih (h ++ [⟨batch, true⟩])
          refine ⟨⟨batch, true⟩ :: calls, code, ?_, ?_, ?_⟩
          · rw [List.append_cons, ← hrun]
            simp [putAll, Prog.request, run, Prog.bind, ha]
          · exact (List.cons_prefix_cons).mpr ⟨rfl, hstart⟩
          · rcases hend with ⟨rfl, hall, hok⟩ | ⟨rfl, accepted, last, rfl, hlast, hok⟩
            · exact Or.inl ⟨rfl, by rw [List.map_cons, hall], List.forall_mem_cons.mpr ⟨rfl, hok⟩⟩
            · exact Or.inr ⟨rfl, _ :: accepted, last, rfl, hlast,
                List.forall_mem_cons.mpr ⟨rfl, hok⟩⟩

/-- What a run of the script on `data` comes to: whole batches of `data` in order, and the
exit code 0 exactly if all of it was accepted. -/
structure Published (data : List Datum) (calls : History CloudWatch) (code : Nat) : Prop where
  sized : ∀ call ∈ calls, 0 < call.req.length ∧ call.req.length ≤ 1000
  in_order : (calls.map Exchange.req).flatten <+: data
  stops : ∀ pre call post, calls = pre ++ call :: post → post ≠ [] → call.ans = true
  code : code = 0 ∧ (calls.map Exchange.req).flatten = data ∧ (∀ call ∈ calls, call.ans = true) ∨
    code = 1 ∧ ∃ call ∈ calls, call.ans = false

theorem run_main {env : Env CloudWatch} (hanswers : ∀ h r, ∃ a, env h r = some a)
    {samples : List Sample} (hne : samples ≠ []) (dimensions : List Dimension) :
    ∃ calls code, run env (main (some samples) dimensions) [] = (.ret code, calls) ∧
      Published (toMetricData samples dimensions) calls code := by
  have hpos : 0 < maxMetricsPerCall := by decide
  obtain ⟨calls, code, hrun, hstart, hend⟩ := run_putAll hanswers
    (Py.slices maxMetricsPerCall (toMetricData samples dimensions)) []
  have hall := Py.flatten_slices hpos (toMetricData samples dimensions)
  refine ⟨calls, code, ?_, ?_, ?_, ?_, ?_⟩
  · rw [main, if_neg hne, hrun, List.nil_append]
  · intro call hcall
    exact Py.length_slice hpos (hstart.subset (List.mem_map_of_mem hcall))
  · obtain ⟨rest, hrest⟩ := hstart
    refine ⟨rest.flatten, ?_⟩
    rw [← List.flatten_append, hrest, hall]
  · rintro pre call post rfl hpost
    rcases hend with ⟨-, -, hok⟩ | ⟨-, accepted, last, hcalls, -, hok⟩
    · exact hok call (by simp)
    · obtain ⟨post, final, rfl⟩ := (List.eq_nil_or_concat post).resolve_left hpost
      rw [List.concat_eq_append, ← List.cons_append, ← List.append_assoc] at hcalls
      obtain ⟨rfl, -⟩ := List.append_inj' hcalls rfl
      exact hok call (by simp)
  · rcases hend with ⟨hcode, hcalls, hok⟩ | ⟨hcode, accepted, last, rfl, hlast, -⟩
    · exact Or.inl ⟨hcode, by rw [hcalls, hall], hok⟩
    · exact Or.inr ⟨hcode, last, by simp, hlast⟩

/-! ## Merged dimensions -/

theorem mergeLabels_eq (dimensions : List Dimension) (labels : Labels) :
    mergeLabels dimensions labels =
      Py.dictUpdate (Py.dictUpdate [] (dimensions.map Dimension.item))
        ((labels.mergeSort itemLe).filter fun item => item.2 ≠ []) := by
  unfold mergeLabels
  generalize Py.dictUpdate [] (dimensions.map Dimension.item) = merged
  rw [Py.dictUpdate, List.foldl_filter]
  simp only [decide_eq_true_eq]

theorem nodup_dimensions (dimensions : List Dimension) :
    ((Py.dictUpdate [] (dimensions.map Dimension.item)).map Prod.fst).Nodup :=
  Py.nodup_dictUpdate List.nodup_nil

theorem nodup_mergeLabels (dimensions : List Dimension) (labels : Labels) :
    ((mergeLabels dimensions labels).map Prod.fst).Nodup := by
  rw [mergeLabels_eq]
  exact Py.nodup_dictUpdate (nodup_dimensions dimensions)

theorem value_ne_of_mem_mergeLabels {dimensions : List Dimension} {labels : Labels}
    {item : Text × Text} (h : item ∈ mergeLabels dimensions labels) : item.2 ≠ [] := by
  rw [mergeLabels_eq] at h
  rcases Py.mem_dictUpdate h with h | h
  · rcases Py.mem_dictUpdate h with h | h
    · cases h
    · obtain ⟨d, -, rfl⟩ := List.mem_map.mp h
      exact d.value_ne
  · simpa using (List.mem_filter.mp h).2

/-- A label with a value is a dimension, whatever the command line says. -/
theorem mem_mergeLabels {dimensions : List Dimension} {labels : Labels}
    (hlabels : (labels.map Prod.fst).Nodup) {name value : Text} (hmem : (name, value) ∈ labels)
    (hvalue : value ≠ []) (v : Text) :
    (name, v) ∈ mergeLabels dimensions labels ↔ v = value := by
  have hkept : (((labels.mergeSort itemLe).filter fun item => item.2 ≠ []).map Prod.fst).Nodup :=
    (List.filter_sublist.map Prod.fst).nodup
      ((((List.mergeSort_perm labels itemLe).map Prod.fst).nodup_iff).mpr hlabels)
  rw [mergeLabels_eq]
  refine Py.mem_dictUpdate_iff (nodup_dimensions dimensions) hkept ?_ v
  rw [List.mem_filter, List.mem_mergeSort]
  exact ⟨hmem, by simpa using hvalue⟩

/-! ## The fixed texts -/

def Ascii (t : Text) : Prop := ∀ c ∈ t, c.val.toNat < 128

instance (t : Text) : Decidable (Ascii t) := List.decidableBAll _ t

theorem Ascii.append {s t : Text} (hs : Ascii s) (ht : Ascii t) : Ascii (s ++ t) := by
  intro c hc
  rcases List.mem_append.mp hc with hc | hc
  · exact hs c hc
  · exact ht c hc

def PlainMetric.texts (metric : PlainMetric) : Text × Text × Text :=
  (metric.name, metric.kind, metric.help)

def TransferSeries.texts (series : TransferSeries) : Text × Text × Text :=
  (series.name, series.kind, series.help)

/-- Name, kind and help of every metric. -/
def allTexts : List (Text × Text × Text) :=
  (Metrics.new.gatewayMetrics 0 0).map PlainMetric.texts ++
    (unhealthyName, "gauge".toList, unhealthyHelp) :: transferSeries.map TransferSeries.texts

theorem texts_gatewayMetrics (m : Metrics) (pasvPortsActive pasvPortsCapacity : UInt64) :
    (m.gatewayMetrics pasvPortsActive pasvPortsCapacity).map PlainMetric.texts =
      (Metrics.new.gatewayMetrics 0 0).map PlainMetric.texts := rfl

theorem names_allTexts : allTexts.map Prod.fst = metricUnits.map Prod.fst := by
  unfold allTexts metricUnits transferSeries unhealthyName Metrics.gatewayMetrics
  simp only [List.map_cons, List.map_nil, List.cons_append, List.nil_append, PlainMetric.texts,
    TransferSeries.texts, Metrics.gauge, Metrics.counter]

theorem nodup_metricUnits : (metricUnits.map Prod.fst).Nodup := by
  unfold metricUnits
  simp only [List.map_cons, List.map_nil]
  repeat rw [String.toList_ofList]
  decide +kernel

theorem ascii_allTexts : ∀ texts ∈ allTexts, Ascii texts.1 ∧ Ascii texts.2.1 ∧ Ascii texts.2.2 := by
  unfold allTexts transferSeries unhealthyName unhealthyHelp Metrics.gatewayMetrics
  simp only [List.map_cons, List.map_nil, List.cons_append, List.nil_append, PlainMetric.texts,
    TransferSeries.texts, Metrics.gauge, Metrics.counter]
  repeat rw [String.toList_ofList]
  decide +kernel

theorem mem_allTexts_gateway {m : Metrics} {pasvPortsActive pasvPortsCapacity : UInt64}
    {metric : PlainMetric} (h : metric ∈ m.gatewayMetrics pasvPortsActive pasvPortsCapacity) :
    metric.texts ∈ allTexts := by
  refine List.mem_append_left _ ?_
  rw [← texts_gatewayMetrics m pasvPortsActive pasvPortsCapacity]
  exact List.mem_map_of_mem h

theorem mem_allTexts_unhealthy : (unhealthyName, "gauge".toList, unhealthyHelp) ∈ allTexts :=
  List.mem_append_right _ List.mem_cons_self

theorem mem_allTexts_transfer {series : TransferSeries} (h : series ∈ transferSeries) :
    series.texts ∈ allTexts :=
  List.mem_append_right _ (List.mem_cons_of_mem _ (List.mem_map_of_mem h))

/-! ## The text is ASCII -/

section AsciiLines

theorem ascii_helpLine {name help : Text} (hname : Ascii name) (hhelp : Ascii help) :
    Ascii (helpLine name help) := by
  have hword : Ascii "# HELP ".toList := by decide +kernel
  exact ((hword.append hname).append (by decide)).append hhelp

theorem ascii_typeLine {name kind : Text} (hname : Ascii name) (hkind : Ascii kind) :
    Ascii (typeLine name kind) := by
  have hword : Ascii "# TYPE ".toList := by decide +kernel
  exact ((hword.append hname).append (by decide)).append hkind

theorem ascii_of_isDigit {c : Char} (h : c.isDigit = true) : c.val.toNat < 128 := by
  have hle : c.toNat ≤ 57 := (Char.isDigit_iff_toNat.mp h).2
  exact Nat.lt_of_le_of_lt hle (by decide)

theorem ascii_decimal (n : Nat) : Ascii (decimal n) := fun _ hc =>
  ascii_of_isDigit (isDigit_of_mem_decimal hc)

theorem ascii_ipv4 (ip : Ipv4Addr) : Ascii ip.text := by
  intro c hc
  rcases mem_ipv4_text hc with h | rfl
  · exact ascii_of_isDigit h
  · decide

theorem ascii_escapeLabelValue {value : Text} (h : Ascii value) :
    Ascii (escapeLabelValue value) := by
  intro c hc
  obtain ⟨d, hd, hc⟩ := List.mem_flatMap.mp hc
  unfold escapeLabelChar at hc
  split_ifs at hc
  · exact (by decide : Ascii ['\\', '\\']) c hc
  · exact (by decide : Ascii ['\\', '"']) c hc
  · exact (by decide : Ascii ['\\', 'n']) c hc
  · rw [List.mem_singleton.mp hc]
    exact h d hd

theorem ascii_labelText {name value : Text} (hname : Ascii name) (hvalue : Ascii value) :
    Ascii (labelText name value) :=
  hname.append ((by decide : Ascii ['=', '"']).append
    ((ascii_escapeLabelValue hvalue).append (by decide)))

theorem ascii_label_names : Ascii "source".toList ∧ Ascii "backend".toList := by decide +kernel

theorem PlainMetric.ascii_lines {metric : PlainMetric} (h : metric.texts ∈ allTexts) :
    ∀ l ∈ metric.lines, Ascii l := by
  obtain ⟨hname, hkind, hhelp⟩ := ascii_allTexts _ h
  intro l hl
  simp only [lines, List.mem_cons, List.not_mem_nil, or_false] at hl
  rcases hl with rfl | rfl | rfl
  · exact ascii_helpLine hname hhelp
  · exact ascii_typeLine hname hkind
  · exact Ascii.append hname ((by decide : Ascii [' ']).append (ascii_decimal _))

theorem SourceHealth.ascii_sampleLine (health : SourceHealth) : Ascii health.sampleLine := by
  rw [sampleLine_eq]
  exact (ascii_allTexts _ mem_allTexts_unhealthy).1.append ((by decide : Ascii ['\x7b']).append
    ((ascii_labelText ascii_label_names.1 (ascii_ipv4 _)).append
      ((by decide : Ascii ['\x7d', ' ']).append (ascii_decimal _))))

theorem TransferSeries.ascii_lines {series : TransferSeries} (h : series ∈ transferSeries)
    {transfers : List SourceTransferStat} (hbackends : ∀ stat ∈ transfers, Ascii stat.backend) :
    ∀ l ∈ series.lines transfers, Ascii l := by
  obtain ⟨hname, hkind, hhelp⟩ := ascii_allTexts _ (mem_allTexts_transfer h)
  intro l hl
  rcases List.mem_append.mp hl with hl | hl
  · simp only [List.mem_cons, List.not_mem_nil, or_false] at hl
    rcases hl with rfl | rfl
    · exact ascii_helpLine hname hhelp
    · exact ascii_typeLine hname hkind
  · obtain ⟨stat, hstat, rfl⟩ := List.mem_map.mp hl
    rw [sampleLine_eq]
    exact Ascii.append hname ((by decide : Ascii ['\x7b']).append
      ((ascii_labelText ascii_label_names.2 (hbackends stat hstat)).append
        ((by decide : Ascii [',']).append
          ((ascii_labelText ascii_label_names.1 (ascii_ipv4 _)).append
            ((by decide : Ascii ['\x7d', ' ']).append (ascii_decimal _))))))

theorem ascii_rotationLines {rotation : RotatorSnapshot}
    (hbackends : ∀ stat ∈ rotation.transfers, Ascii stat.backend) :
    ∀ l ∈ rotationLines rotation, Ascii l := by
  obtain ⟨hname, hkind, hhelp⟩ := ascii_allTexts _ mem_allTexts_unhealthy
  intro l hl
  rcases List.mem_append.mp hl with hl | hl
  · rcases List.mem_append.mp hl with hl | hl
    · simp only [List.mem_cons, List.not_mem_nil, or_false] at hl
      rcases hl with rfl | rfl
      · exact ascii_helpLine hname hhelp
      · exact ascii_typeLine hname hkind
    · obtain ⟨health, -, rfl⟩ := List.mem_map.mp hl
      exact health.ascii_sampleLine
  · obtain ⟨series, hseries, hl⟩ := List.mem_flatMap.mp hl
    exact series.ascii_lines hseries hbackends l hl

theorem Metrics.ascii_render {m : Metrics} {pasvPortsActive pasvPortsCapacity : UInt64}
    {rotation : Option RotatorSnapshot}
    (hbackends : ∀ snapshot ∈ rotation, ∀ stat ∈ snapshot.transfers, Ascii stat.backend) :
    Ascii (m.render pasvPortsActive pasvPortsCapacity rotation) := by
  have hlines : ∀ l ∈ m.lines pasvPortsActive pasvPortsCapacity rotation, Ascii l := by
    intro l hl
    rcases List.mem_append.mp hl with hl | hl
    · obtain ⟨metric, hmetric, hl⟩ := List.mem_flatMap.mp hl
      exact metric.ascii_lines (mem_allTexts_gateway hmetric) l hl
    · cases rotation with
      | none => cases hl
      | some snapshot => exact ascii_rotationLines (hbackends snapshot rfl) l hl
  rw [Metrics.render_eq]
  intro c hc
  obtain ⟨l, hl, hc⟩ := List.mem_flatMap.mp hc
  exact (hlines l hl).append (by decide : Ascii ['\n']) c hc

end AsciiLines

/-! ## From the gateway to CloudWatch -/

theorem Metrics.series_ne_nil (m : Metrics) (pasvPortsActive pasvPortsCapacity : UInt64)
    (rotation : Option RotatorSnapshot) :
    m.series pasvPortsActive pasvPortsCapacity rotation ≠ [] :=
  List.append_ne_nil_of_left_ne_nil (List.cons_ne_nil _ _) _

/-- The values are whole numbers. -/
theorem Metrics.value_whole (m : Metrics) {pasvPortsActive pasvPortsCapacity : UInt64}
    {rotation : Option RotatorSnapshot} {sample : Sample}
    (h : sample ∈ m.series pasvPortsActive pasvPortsCapacity rotation) :
    ∃ n : Nat, sample.value = n := by
  rcases List.mem_append.mp h with h | h
  · obtain ⟨metric, -, rfl⟩ := List.mem_map.mp h
    exact ⟨_, rfl⟩
  · cases rotation with
    | none => cases h
    | some snapshot =>
        rcases List.mem_append.mp h with h | h
        · obtain ⟨health, -, rfl⟩ := List.mem_map.mp h
          exact ⟨_, rfl⟩
        · obtain ⟨series, -, h⟩ := List.mem_flatMap.mp h
          obtain ⟨stat, -, rfl⟩ := List.mem_map.mp h
          exact ⟨_, rfl⟩

/-- What the script makes of the metrics, once decoded. -/
theorem fetchMetrics_ok {decode : Bytes → Text} (hdecode : ∀ t, Ascii t → decode (utf8 t) = t)
    (m : Metrics) (pasvPortsActive pasvPortsCapacity : UInt64) {rotation : Option RotatorSnapshot}
    (hbackends : ∀ snapshot ∈ rotation, ∀ stat ∈ snapshot.transfers,
      Ascii stat.backend ∧ OnlyLineFeeds stat.backend) (contentType : Text) :
    fetchMetrics decode (some (httpResponse "200 OK".toList contentType
        (m.render pasvPortsActive pasvPortsCapacity rotation))) =
      some (m.series pasvPortsActive pasvPortsCapacity rotation) := by
  have hstatus : statusCode "200 OK".toList = 200 := by decide +kernel
  have hlines : ∀ l ∈ m.lines pasvPortsActive pasvPortsCapacity rotation, Unbroken l := by
    intro l hl
    rcases List.mem_append.mp hl with hl | hl
    · obtain ⟨metric, hmetric, hl⟩ := List.mem_flatMap.mp hl
      exact metric.unbroken_lines (Metrics.described hmetric) l hl
    · cases rotation with
      | none => cases hl
      | some snapshot =>
          exact unbroken_rotationLines (fun stat hstat => (hbackends snapshot rfl stat hstat).2) l
            hl
  have hascii : Ascii (m.render pasvPortsActive pasvPortsCapacity rotation) :=
    m.ascii_render fun snapshot hsnapshot stat hstat => (hbackends snapshot hsnapshot stat hstat).1
  unfold fetchMetrics httpResponse
  dsimp only
  rw [hstatus, if_neg (by decide), hdecode _ hascii, parsePrometheusText, Metrics.render_eq,
    flatMap_writeln, Py.splitlines_lines hlines, Metrics.filterMap_lines]

/-- What the script relies on `requests` for. `receive` is what `requests.get` makes of the
bytes that come back, `decode` what `response.text` makes of a body. -/
structure Requests (receive : Bytes → Option Http.Response) (decode : Bytes → Text) : Prop where
  received : ∀ body,
    receive (Http.render (httpResponse "200 OK".toList "text/plain; version=0.0.4".toList body)) =
      some (httpResponse "200 OK".toList "text/plain; version=0.0.4".toList body)
  text : ∀ t, Ascii t → decode (utf8 t) = t

/-- **A scrape reaches CloudWatch**: the gateway answers a `GET /metrics` with all its
series, the script reads exactly these and puts each of them, in order and once, for as long
as CloudWatch accepts the batches. A value is put as the double nearest to it, so what is
below `2 ^ 53` is put as it is. -/
theorem scrape_publishes {env : Env Io} {c : Conn} {h : History Io}
    {chunks : List (UInt8 × Bytes)} (hfeeds : Feeds env c h chunks) (r : WholeRequest)
    {rest : Bytes} (hs : chunkBytes chunks = r.bytes ++ rest)
    (hasks : requestOf r.line = .ok "GET".toList "/metrics".toList)
    (hwrites : ∀ h b, ∃ a, env h (.write c b) = some a)
    (m : Metrics) (pasvPortsActive pasvPortsCapacity : UInt64) {rotation : Option RotatorSnapshot}
    (hbackends : ∀ snapshot ∈ rotation, ∀ stat ∈ snapshot.transfers,
      Ascii stat.backend ∧ OnlyLineFeeds stat.backend)
    {receive : Bytes → Option Http.Response} {decode : Bytes → Text}
    (hrequests : Requests receive decode)
    {cloudwatch : Env CloudWatch} (hanswers : ∀ h r, ∃ a, cloudwatch h r = some a)
    (dimensions : List Dimension) :
    let series := m.series pasvPortsActive pasvPortsCapacity rotation
    ∃ d result sent calls code,
      run env (handleRequest c (m.render pasvPortsActive pasvPortsCapacity rotation)) h =
        (.ret result, h ++ d) ∧
      writesTo (· = c) d = [sent] ∧ fetchMetrics decode (receive sent) = some series ∧
      run cloudwatch (main (fetchMetrics decode (receive sent)) dimensions) [] =
        (.ret code, calls) ∧
      Published (toMetricData series dimensions) calls code ∧
      ∀ sample ∈ series, sample.value < 2 ^ 53 →
        (toDatum dimensions sample).value = sample.value := by
  intro series
  obtain ⟨d, result, hrun, hsent⟩ := run_scrape hfeeds r hs hasks hwrites
    (m.render pasvPortsActive pasvPortsCapacity rotation)
  obtain ⟨calls, code, hmain, hpublished⟩ := run_main hanswers
    (m.series_ne_nil pasvPortsActive pasvPortsCapacity rotation) dimensions
  have hread := fetchMetrics_ok hrequests.text m pasvPortsActive pasvPortsCapacity hbackends
    "text/plain; version=0.0.4".toList
  rw [← hrequests.received, ← utf8_response] at hread
  refine ⟨d, result, _, calls, code, hrun, hsent, hread, ?_, hpublished, fun sample hsample => ?_⟩
  · rw [hread, hmain]
  · obtain ⟨n, hn⟩ := m.value_whole hsample
    intro hsmall
    rw [hn] at hsmall ⊢
    show Py.nearestDouble sample.value = n
    rw [hn]
    exact Py.nearestDouble_natCast (by exact_mod_cast hsmall)

/-- ISO-8859-1, which `requests` takes a `text/plain` without a charset for. -/
def latin1 (b : Bytes) : Text := b.map fun x => Char.ofNat x.toNat

theorem latin1_utf8 (t : Text) (h : Ascii t) : latin1 (utf8 t) = t := by
  induction t with
  | nil => rfl
  | cons c t ih =>
      obtain ⟨hc, ht⟩ := List.forall_mem_cons.mp h
      have hbyte : Char.ofNat (UInt8.ofNat c.val.toNat).toNat = c := by
        rw [UInt8.toNat_ofNat_of_lt' (Nat.lt_trans hc (by decide))]
        exact Char.ofNat_toNat c
      have hcons : utf8 (c :: t) = String.utf8EncodeChar c ++ utf8 t := List.flatMap_cons
      rw [hcons, utf8EncodeChar_ascii hc, List.singleton_append, latin1, List.map_cons, hbyte]
      exact congrArg (c :: ·) (ih ht)

def scrapeRequest : WholeRequest where
  line := "GET /metrics HTTP/1.1\r\n".toList
  headers := ["Host: gw:9273\r\n".toList, "Accept: */*\r\n".toList]
  blank := "\r\n".toList
  line_ends := ⟨utf8 "GET /metrics HTTP/1.1\r".toList, by decide +kernel, by decide +kernel⟩
  headers_end := by
    refine List.forall_mem_cons.mpr ⟨⟨⟨utf8 "Host: gw:9273\r".toList, ?_, ?_⟩, ?_⟩, ?_⟩
    · decide +kernel
    · decide +kernel
    · decide +kernel
    · refine List.forall_mem_singleton.mpr ⟨⟨utf8 "Accept: */*\r".toList, ?_, ?_⟩, ?_⟩
      · decide +kernel
      · decide +kernel
      · decide +kernel
  blank_ends := ⟨⟨[cr], by decide, by decide +kernel⟩, by decide +kernel⟩
  line_fits := by decide +kernel
  headers_fit := by decide +kernel

def scrapeChunks : List (UInt8 × Bytes) :=
  chunksOf ["GET /metr", "ics HTTP/1.1\r\nHost: gw:9273\r\nAccept: */*\r\n\r\n"]

def oneTransferOpen : RotatorSnapshot :=
  ⟨[⟨⟨10, 0, 0, 5⟩, true⟩], [⟨['b', ':', '2', '1'], ⟨10, 0, 0, 5⟩, 9, 2, 77, 0⟩]⟩

/-- A scrape with one backend, when CloudWatch accepts everything. -/
theorem scrape_publishes_one_transfer :
    ∃ d result sent calls code,
      run (scraper scrapeChunks)
        (handleRequest .client (Metrics.new.render 3 9 (some oneTransferOpen))) [] =
          (.ret result, [] ++ d) ∧
      writesTo (· = .client) d = [sent] ∧
      fetchMetrics latin1 (Http.parse sent) = some (Metrics.new.series 3 9 (some oneTransferOpen)) ∧
      run (fun _ _ => some true) (main (fetchMetrics latin1 (Http.parse sent)) []) [] =
        (.ret code, calls) ∧
      Published (toMetricData (Metrics.new.series 3 9 (some oneTransferOpen)) []) calls code := by
  have hs : chunkBytes scrapeChunks = scrapeRequest.bytes ++ [] := by decide +kernel
  have hasks : requestOf scrapeRequest.line = .ok "GET".toList "/metrics".toList := by
    decide +kernel
  have hbackends : ∀ snapshot ∈ some oneTransferOpen, ∀ stat ∈ snapshot.transfers,
      Ascii stat.backend ∧ OnlyLineFeeds stat.backend := by
    intro snapshot hsnapshot stat hstat
    obtain rfl := Option.some.inj hsnapshot
    obtain rfl := List.mem_singleton.mp hstat
    refine ⟨by decide, fun c hc hboundary => ?_⟩
    have hnone : (['b', ':', '2', '1'].all fun c => !Py.isLineBoundary c) = true := by
      decide +kernel
    simpa [hboundary] using List.all_eq_true.mp hnone c hc
  have hrequests : Requests Http.parse latin1 := by
    refine ⟨fun body => Http.parse_render (fits_httpResponse ?_ ?_ body), latin1_utf8⟩
    · decide +kernel
    · decide +kernel
  have hanswers : ∀ h r, ∃ a, (fun _ _ => some true : Env CloudWatch) h r = some a :=
    fun _ _ => ⟨true, rfl⟩
  obtain ⟨d, result, sent, calls, code, hrun, hsent, hread, hmain, hpublished, -⟩ :=
    scrape_publishes (arrives_scraper .client scrapeChunks).feeds scrapeRequest hs hasks
      (fun _ _ => ⟨_, rfl⟩) Metrics.new 3 9 hbackends hrequests hanswers []
  exact ⟨d, result, sent, calls, code, hrun, hsent, hread, hmain, hpublished⟩

/-! ## Points CloudWatch can tell apart -/

/-- The same metric to CloudWatch: the name, and the dimensions in any order. -/
def Datum.SameMetric (x y : Datum) : Prop :=
  x.metricName = y.metricName ∧
    ∀ item, item ∈ x.dimensions.getD [] ↔ item ∈ y.dimensions.getD []

theorem getD_dimensions (dimensions : List Dimension) (sample : Sample) :
    (toDatum dimensions sample).dimensions.getD [] = mergeLabels dimensions sample.labels := by
  unfold toDatum
  dsimp only
  split
  · rfl
  · rename_i hnil
    exact (not_not.mp hnil).symm

/-- Samples that differ in their name or in a label that both have. -/
def Sample.Apart (x y : Sample) : Prop :=
  x.name ≠ y.name ∨ ∃ label v v', (label, v) ∈ x.labels ∧ (label, v') ∈ y.labels ∧
    v ≠ [] ∧ v' ≠ [] ∧ v ≠ v'

theorem not_sameMetric {x y : Sample} (hx : (x.labels.map Prod.fst).Nodup)
    (hy : (y.labels.map Prod.fst).Nodup) (h : x.Apart y) (dimensions : List Dimension) :
    ¬(toDatum dimensions x).SameMetric (toDatum dimensions y) := by
  rintro ⟨hname, hitems⟩
  rcases h with hne | ⟨label, v, v', hv, hv', hfull, hfull', hne⟩
  · exact hne hname
  · have hthere : (label, v) ∈ mergeLabels dimensions x.labels :=
      (mem_mergeLabels hx hv hfull v).mpr rfl
    rw [← getD_dimensions, hitems, getD_dimensions] at hthere
    exact hne ((mem_mergeLabels hy hv' hfull' v).mp hthere)

theorem decimal_injective : Function.Injective decimal := fun n k h => by
  rw [(decimal_digits n).2.2, (decimal_digits k).2.2, h]

theorem dotted_inj {n k : Nat} {s t : Text} (h : decimal n ++ '.' :: s = decimal k ++ '.' :: t) :
    n = k ∧ s = t := by
  have hn : '.' ∉ decimal n := notMem_decimal rfl n
  have hk : '.' ∉ decimal k := notMem_decimal rfl k
  have hsplit := congrArg (splitOnce '.') h
  rw [Http.splitOnce_append hn, Http.splitOnce_append hk, Option.some.injEq,
    Prod.mk.injEq] at hsplit
  exact ⟨decimal_injective hsplit.1, hsplit.2⟩

theorem Ipv4Addr.text_injective : Function.Injective Ipv4Addr.text := by
  intro ip ip' h
  obtain ⟨ha, h⟩ := dotted_inj h
  obtain ⟨hb, h⟩ := dotted_inj h
  obtain ⟨hc, h⟩ := dotted_inj h
  have hd := decimal_injective h
  cases ip
  cases ip'
  simp only [UInt8.toNat_inj] at ha hb hc hd
  rw [ha, hb, hc, hd]

theorem Ipv4Addr.text_ne_nil (ip : Ipv4Addr) : ip.text ≠ [] :=
  List.append_ne_nil_of_left_ne_nil (decimal_digits _).1 _

section Series

variable {rotation : RotatorSnapshot}

theorem nodup_names : (allTexts.map Prod.fst).Nodup := names_allTexts ▸ nodup_metricUnits

theorem name_mem_of_rotation {sample : Sample} (h : sample ∈ rotationSeries rotation) :
    sample.name ∈ ((unhealthyName, "gauge".toList, unhealthyHelp) ::
      transferSeries.map TransferSeries.texts).map Prod.fst := by
  rw [List.map_cons]
  rcases List.mem_append.mp h with h | h
  · obtain ⟨health, -, rfl⟩ := List.mem_map.mp h
    exact List.mem_cons_self
  · obtain ⟨series, hseries, h⟩ := List.mem_flatMap.mp h
    obtain ⟨stat, -, rfl⟩ := List.mem_map.mp h
    exact List.mem_cons_of_mem _ (List.mem_map_of_mem (List.mem_map_of_mem hseries))

theorem pairwise_sources (h : (rotation.sources.map SourceHealth.source).Nodup) :
    (rotation.sources.map SourceHealth.sample).Pairwise Sample.Apart := by
  refine List.pairwise_map.mpr ((List.pairwise_map.mp h).imp fun hne => ?_)
  refine Or.inr ⟨"source".toList, _, _, List.mem_singleton.mpr rfl, List.mem_singleton.mpr rfl,
    Ipv4Addr.text_ne_nil _, Ipv4Addr.text_ne_nil _, fun heq => hne (Ipv4Addr.text_injective heq)⟩

theorem pairwise_transfers (series : TransferSeries)
    (h : (rotation.transfers.map fun s => (s.backend, s.source)).Nodup)
    (hbackends : ∀ stat ∈ rotation.transfers, stat.backend ≠ []) :
    (rotation.transfers.map series.sample).Pairwise Sample.Apart := by
  have hpairs := List.pairwise_map.mp h
  refine List.pairwise_map.mpr (List.Pairwise.imp_of_mem ?_ hpairs)
  intro x y hx hy hne
  by_cases hbackend : x.backend = y.backend
  · have hsource : x.source ≠ y.source := fun hsource => hne (by rw [hbackend, hsource])
    refine Or.inr ⟨"source".toList, _, _, List.mem_cons_of_mem _ (List.mem_singleton.mpr rfl),
      List.mem_cons_of_mem _ (List.mem_singleton.mpr rfl), Ipv4Addr.text_ne_nil _,
      Ipv4Addr.text_ne_nil _, fun heq => hsource (Ipv4Addr.text_injective heq)⟩
  · exact Or.inr ⟨"backend".toList, _, _, List.mem_cons_self, List.mem_cons_self, hbackends x hx,
      hbackends y hy, hbackend⟩

theorem pairwise_rotationSeries (hsources : (rotation.sources.map SourceHealth.source).Nodup)
    (htransfers : (rotation.transfers.map fun s => (s.backend, s.source)).Nodup)
    (hbackends : ∀ stat ∈ rotation.transfers, stat.backend ≠ []) :
    (rotationSeries rotation).Pairwise Sample.Apart := by
  have hnames := nodup_names
  rw [allTexts, List.map_append, List.map_cons, List.map_map, List.map_map] at hnames
  obtain ⟨hunhealthy, hseries⟩ := List.nodup_cons.mp (List.nodup_append.mp hnames).2.1
  refine List.pairwise_append.mpr ⟨pairwise_sources hsources, ?_, fun x hx y hy => Or.inl ?_⟩
  · refine List.pairwise_flatMap.mpr ⟨fun series _ =>
        pairwise_transfers series htransfers hbackends,
      (List.pairwise_map.mp hseries).imp fun hne x hx y hy => Or.inl ?_⟩
    obtain ⟨stat, -, rfl⟩ := List.mem_map.mp hx
    obtain ⟨stat', -, rfl⟩ := List.mem_map.mp hy
    exact hne
  · obtain ⟨health, -, rfl⟩ := List.mem_map.mp hx
    obtain ⟨series, hmem, hy⟩ := List.mem_flatMap.mp hy
    obtain ⟨stat, -, rfl⟩ := List.mem_map.mp hy
    intro heq
    refine hunhealthy (List.mem_map.mpr ⟨series, hmem, ?_⟩)
    exact heq.symm

theorem pairwise_series (m : Metrics) (pasvPortsActive pasvPortsCapacity : UInt64)
    (hsources : (rotation.sources.map SourceHealth.source).Nodup)
    (htransfers : (rotation.transfers.map fun s => (s.backend, s.source)).Nodup)
    (hbackends : ∀ stat ∈ rotation.transfers, stat.backend ≠ []) :
    (m.series pasvPortsActive pasvPortsCapacity (some rotation)).Pairwise Sample.Apart := by
  have hnames := nodup_names
  rw [allTexts, ← texts_gatewayMetrics m pasvPortsActive pasvPortsCapacity, List.map_append,
    List.map_map] at hnames
  obtain ⟨hplain, -, hdisjoint⟩ := List.nodup_append.mp hnames
  refine List.pairwise_append.mpr
    ⟨?_, pairwise_rotationSeries hsources htransfers hbackends, fun x hx y hy => Or.inl ?_⟩
  · exact List.pairwise_map.mpr ((List.pairwise_map.mp hplain).imp fun hne => Or.inl hne)
  · obtain ⟨metric, hmetric, rfl⟩ := List.mem_map.mp hx
    exact hdisjoint _ (List.mem_map.mpr ⟨metric, hmetric, rfl⟩) _ (name_mem_of_rotation hy)

end Series

namespace RotWorld

variable {w w' : RotWorld} {act : RotAct}

/-- A step leaves the list of sources or puts a new one in its place. -/
theorem sources_step (h : w.step act = some w') :
    w'.rot.sources = w.rot.sources ∨ ∃ l, w'.rot.sources = sortDedup l := by
  have hset : ∀ l, (w.rot.setSources l).1.sources = w.rot.sources ∨
      ∃ l', (w.rot.setSources l).1.sources = sortDedup l' := by
    intro l
    rw [Rotator.setSources]
    split
    · exact Or.inl rfl
    · exact Or.inr ⟨l, rfl⟩
  cases step_turn h with
  | start name capacity source hrw => exact Or.inl hrw.sources
  | grant i name capacity source slot hi hslot hfree hrw => exact Or.inl hrw.sources
  | commit i name capacity source hi hrw => exact Or.inl hrw.sources
  | timeout i name capacity source hi hrw => exact Or.inl hrw.sources
  | cancel i name capacity source hi hrot => exact Or.inl (by rw [hrot])
  | drop i name source hi hrw => exact Or.inl hrw.sources
  | health act hact hkeep =>
      cases act with
      | setSources l =>
          obtain rfl := Option.some.inj h
          exact hset l
      | refreshOnce listing =>
          obtain rfl := Option.some.inj h
          cases listing with
          | none => exact Or.inl rfl
          | some l =>
              cases l with
              | nil => exact Or.inl rfl
              | cons ip rest => exact hset (ip :: rest)
      | reportConnectFailure source k now =>
          obtain rfl := Option.some.inj h
          dsimp only
          rw [Rotator.reportConnectFailure]
          split
          · exact Or.inl rfl
          · exact Or.inl rfl
      | markUnhealthy source now =>
          obtain rfl := Option.some.inj h
          exact Or.inl rfl
      | _ => cases hact

/-- What the points of a scrape rest on: a source is listed once, and the entries are of
configured backends. -/
structure Countable (names : List Text) (w : RotWorld) : Prop where
  sources : w.rot.sources.Nodup
  configured : Configured names w

theorem Countable.step {names : List Text} (h : Countable names w) (hact : act.StartsIn names)
    (hstep : w.step act = some w') : Countable names w' := by
  refine ⟨?_, h.configured.step hact hstep⟩
  rcases sources_step hstep with heq | ⟨l, heq⟩
  · rw [heq]
    exact h.sources
  · rw [heq]
    exact List.nodup_dedup _

theorem countable_init (names : List Text) (sources : List Ipv4Addr) :
    Countable names (init sources) :=
  ⟨List.nodup_dedup _, configured_init names sources⟩

end RotWorld

/-- The points are told apart, and each is one that CloudWatch takes: a unit from the table,
no dimension twice and none without a value. -/
structure WellPublished (data : List Datum) : Prop where
  apart : data.Pairwise fun x y => ¬x.SameMetric y
  units : ∀ datum ∈ data, (datum.metricName, datum.unit) ∈ metricUnits
  names : ∀ datum ∈ data, ((datum.dimensions.getD []).map Prod.fst).Nodup
  values : ∀ datum ∈ data, ∀ item ∈ datum.dimensions.getD [], item.2 ≠ []

theorem unit_of_name {name : Text} (h : name ∈ metricUnits.map Prod.fst) :
    (name, (metricUnits.lookup name).getD "None".toList) ∈ metricUnits := by
  obtain ⟨⟨name, unit⟩, hmem, rfl⟩ := List.mem_map.mp h
  have hsome : (metricUnits.lookup name).isSome = true :=
    List.lookup_isSome_iff.mpr ⟨_, hmem, beq_self_eq_true name⟩
  obtain ⟨unit', hunit⟩ := Option.isSome_iff_exists.mp hsome
  rw [hunit, Option.getD_some]
  obtain ⟨before, after, heq, -⟩ := List.lookup_eq_some_iff.mp hunit
  rw [heq]
  exact List.mem_append_right _ List.mem_cons_self

theorem labels_nodup {m : Metrics} {pasvPortsActive pasvPortsCapacity : UInt64}
    {rotation : RotatorSnapshot} {sample : Sample}
    (h : sample ∈ m.series pasvPortsActive pasvPortsCapacity (some rotation)) :
    (sample.labels.map Prod.fst).Nodup := by
  have hlabels : ["backend".toList, "source".toList].Nodup := by decide +kernel
  rcases List.mem_append.mp h with h | h
  · obtain ⟨metric, -, rfl⟩ := List.mem_map.mp h
    exact List.nodup_nil
  rcases List.mem_append.mp h with h | h
  · obtain ⟨health, -, rfl⟩ := List.mem_map.mp h
    exact List.nodup_singleton _
  · obtain ⟨series, -, h⟩ := List.mem_flatMap.mp h
    obtain ⟨stat, -, rfl⟩ := List.mem_map.mp h
    exact hlabels

theorem name_mem_metricUnits {m : Metrics} {pasvPortsActive pasvPortsCapacity : UInt64}
    {rotation : RotatorSnapshot} {sample : Sample}
    (h : sample ∈ m.series pasvPortsActive pasvPortsCapacity (some rotation)) :
    sample.name ∈ metricUnits.map Prod.fst := by
  rw [← names_allTexts]
  rcases List.mem_append.mp h with h | h
  · obtain ⟨metric, hmetric, rfl⟩ := List.mem_map.mp h
    exact List.mem_map_of_mem (mem_allTexts_gateway hmetric)
  · rw [allTexts, List.map_append]
    exact List.mem_append_right _ (name_mem_of_rotation h)

/-- **No two points of the rendered series are the same metric**, in every state of the
rotation that transfers to named backends lead to, whatever `--dimension`s are given. -/
theorem data_points_distinct {names : List Text} (hnames : ∀ name ∈ names, name ≠ [])
    (sources : List Ipv4Addr) {acts : List RotAct} (hacts : ∀ act ∈ acts, act.StartsIn names)
    (m : Metrics) (pasvPortsActive pasvPortsCapacity : UInt64) (dimensions : List Dimension) :
    RotWorld.Always (fun w => ∀ now, WellPublished (toMetricData
      (m.series pasvPortsActive pasvPortsCapacity (some (w.rot.snapshotAt now))) dimensions))
      (.init sources) acts := by
  intro pre post w hsplit hrun now
  have hsteps : RotWorld.StepsMeet (fun _ act => act.StartsIn names) (.init sources) acts :=
    fun pre act post _ _ hacts' _ _ => hacts act (by rw [hacts']; simp)
  have hcount : RotWorld.Countable names w :=
    hsteps.always (RotWorld.countable_init names sources)
      (fun _ _ _ hw hok hstep => hw.step hok hstep) pre post w hsplit hrun
  have hbackends : ∀ stat ∈ (w.rot.snapshotAt now).transfers, stat.backend ≠ [] := by
    intro stat hstat
    obtain ⟨backend, source, slot, hslot, rfl⟩ := Rotator.mem_transfers.mp hstat
    exact hnames backend (hcount.configured backend source slot hslot)
  have hsources : ((w.rot.snapshotAt now).sources.map SourceHealth.source).Nodup := by
    rw [Rotator.snapshotAt, List.map_map]
    exact hcount.sources.map fun _ _ h => h
  have hapart := pairwise_series m pasvPortsActive pasvPortsCapacity hsources
    (Rotator.transfers_nodup w.rot now) hbackends
  refine ⟨?_, ?_, ?_, ?_⟩
  · refine List.pairwise_map.mpr (List.Pairwise.imp_of_mem ?_ hapart)
    exact fun hx hy hxy => not_sameMetric (labels_nodup hx) (labels_nodup hy) hxy dimensions
  · intro datum hdatum
    obtain ⟨sample, hsample, rfl⟩ := List.mem_map.mp hdatum
    exact unit_of_name (name_mem_metricUnits hsample)
  · intro datum hdatum
    obtain ⟨sample, -, rfl⟩ := List.mem_map.mp hdatum
    rw [getD_dimensions]
    exact nodup_mergeLabels dimensions sample.labels
  · intro datum hdatum item hitem
    obtain ⟨sample, -, rfl⟩ := List.mem_map.mp hdatum
    rw [getD_dimensions] at hitem
    exact value_ne_of_mem_mergeLabels hitem

/-- Two transfers at a time to one backend, and a source that comes and goes. -/
def busyBackend : List RotAct :=
  [.start "b:21".toList 2 ⟨10, 0, 0, 1⟩, .grant 0, .commit 0, .setSources [⟨10, 0, 0, 2⟩],
    .start "b:21".toList 2 ⟨10, 0, 0, 2⟩, .grant 1, .setSources [⟨10, 0, 0, 1⟩]]

theorem data_points_distinct_busy_backend :
    RotWorld.Always (fun w => ∀ now, WellPublished (toMetricData
      (Metrics.new.series 1 9 (some (w.rot.snapshotAt now)))
      [⟨['s', 'o', 'u', 'r', 'c', 'e'], ['x'], by decide, by decide⟩]))
      (.init [⟨10, 0, 0, 1⟩]) busyBackend := by
  have hname : "b:21".toList ≠ [] := by decide +kernel
  have hacts : ∀ act ∈ busyBackend, act.StartsIn ["b:21".toList] := by
    simp [busyBackend, RotAct.StartsIn]
  exact data_points_distinct (List.forall_mem_singleton.mpr hname) _ hacts _ _ _ _

end FtpGateway
