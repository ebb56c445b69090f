import Schematic.Command.Run
import Schematic.Proofs.Command.Arguments
import Schematic.Proofs.Json.RoundTrip

namespace Schematic

open Json (Document)

namespace Command

/-- What the source of a run reads as. -/
def sourceText (c : Command) (disk : Disk) (stdin : ByteArray) : Except FileFault String :=
  if readsStdin c.source then textOf stdin else disk.readText c.source

namespace Outcome

/-- The run ends well and writes a text. -/
def Emits (o : Outcome) (text : String) : Prop :=
  o.code = 0 ∧ o.stdout = text

/-- The run writes a document that is read as a report. -/
def Reports (o : Outcome) (r : Report) : Prop :=
  (Document.read? o.stdout >>= Report.decode?) = some r

/-- The run writes an object with a digest of the output, or without one. -/
def Digests (o : Outcome) (hash : Option String) : Prop :=
  ∃ fields, Document.read? o.stdout = some (.object fields) ∧
    fields.lookup "output_hash" = hash.map Document.string

end Outcome

/-- The stages that lower a source tell the same. -/
structure Agree (hdl result info : Outcome) : Prop where
  /-- Provenance is told for a source that is refused, too. -/
  codes : (hdl.code = 0 ∧ result.code = 0 ∧ info.code = 0) ∨
    (hdl.code = 1 ∧ result.code = 1 ∧ info.code = 0) ∨
    (hdl.code = 2 ∧ result.code = 2 ∧ info.code = 2)
  reported : ∀ text, hdl.Emits text ↔ result.code = 0 ∧ result.Reports ⟨text, []⟩
  digested : ∀ hash, info.code = 0 ∧ info.Digests (some hash) ↔
    ∃ text, hdl.Emits text ∧ hash = Sha256.ofText text
  /-- A digest stands for a text that the run would emit if the run emits no other with it. -/
  identified : ∀ text,
    (∀ other, hdl.Emits other → Sha256.ofText other = Sha256.ofText text → other = text) →
      (hdl.Emits text ↔ info.code = 0 ∧ info.Digests (some (Sha256.ofText text)))
  refused : hdl.code = 1 → result.code = 1 ∧ (∃ e, result.Reports ⟨"", [e]⟩) ∧
    info.code = 0 ∧ info.Digests none
  exclusive : ∀ r, result.Reports r → (r.emitted ≠ "" ↔ r.errors = [])

end Command

theorem Provenance.numberless_encode (p : Provenance) : p.encode.Numberless := by
  obtain ⟨source, registry, output⟩ := p
  cases output with
  | none => exact ⟨trivial, trivial, trivial, trivial⟩
  | some hash => exact ⟨trivial, trivial, trivial, trivial, trivial⟩

theorem Declarations.render_ne_empty (d : Declarations) : d.render ≠ "" := by
  simp [render]

private theorem lowerText_ne_empty {registry : Registry} {header : ModuleHeader}
    {source text : String} (htext : lowerText registry header source = .ok text) : text ≠ "" := by
  unfold lowerText at htext
  split at htext
  next => cases htext
  next =>
    split at htext
    next declarations _ =>
      cases htext
      exact declarations.render_ne_empty
    next => cases htext

namespace Command

namespace Outcome

variable {o : Outcome}

private theorem not_reports_of_empty (ho : o.stdout = "") (r : Report) : ¬ o.Reports r := by
  have hnone : Document.read? "" = none := rfl
  simp [Reports, ho, hnone]

theorem reports_iff {report r : Report} (ho : o.stdout = report.encode.pretty ++ "\n") :
    o.Reports r ↔ r = report := by
  rw [Reports, ho, Document.read?_pretty report.numberless_encode]
  change Report.decode? (Document.ofValue report.encode) = some r ↔ _
  rw [report.decode?_encode, Option.some.injEq, eq_comm]

theorem digests_iff {p : Provenance} {hash : Option String} (ho : o.stdout = p.text) :
    o.Digests hash ↔ hash = p.output := by
  have hread : Document.read? o.stdout = some (Document.ofValue p.encode) := by
    rw [ho, Provenance.text, Document.read?_pretty p.numberless_encode]
  have hfields : ∃ fields, Document.ofValue p.encode = .object fields ∧
      fields.lookup "output_hash" = p.output.map Document.string := by
    obtain ⟨source, registry, output⟩ := p
    cases output with
    | none => exact ⟨_, rfl, rfl⟩
    | some hash => exact ⟨_, rfl, rfl⟩
  obtain ⟨fields, hobject, hlookup⟩ := hfields
  rw [Digests, hread, hobject]
  constructor
  · intro hdigest
    obtain ⟨_, hsame, hhash⟩ := hdigest
    cases hsame
    rw [hlookup] at hhash
    exact (Option.map_injective (fun _ _ h => Document.string.inj h) hhash).symm
  · intro hsame
    exact ⟨fields, rfl, hsame ▸ hlookup⟩

end Outcome

private theorem code_of_loadRegistry {read : String → Except FileFault String}
    {library : Option String} {failure : Failure}
    (hfailure : loadRegistry read library = .error failure) :
    failure.code = 2 := by
  unfold loadRegistry at hfailure
  repeat' split at hfailure
  all_goals cases hfailure
  all_goals rfl

/-- Runs that differ in their stage fail alike before it, or come to it alike. -/
theorem evaluate_withStage (c : Command) (read : String → Except FileFault String)
    (source : Except FileFault String) :
    (∃ failure : Failure, failure.code = 2 ∧
      ∀ s, evaluate { c with stage := s } read source = .error failure) ∨
    ∃ registry text, ∀ s, evaluate { c with stage := s } read source =
      produce { c with stage := s } registry text := by
  cases hregistry : loadRegistry read c.library with
  | error failure =>
    refine .inl ⟨failure, code_of_loadRegistry hregistry, ?_⟩
    intro s
    rw [evaluate, hregistry]
    rfl
  | ok registry =>
    cases source with
    | error fault =>
      refine .inl ⟨.file c.source fault, rfl, ?_⟩
      intro s
      rw [evaluate, hregistry]
      rfl
    | ok text =>
      refine .inr ⟨registry, text, ?_⟩
      intro s
      rw [evaluate, hregistry]
      rfl

section

variable {malformed : String} {arguments : List String} {disk : Disk} {stdin : ByteArray}
  {c : Command}

private theorem onDisk_of_error (harguments : parse arguments = .run c) {failure : Failure}
    (hfailure : c.evaluate disk.readText (c.sourceText disk stdin) = .error failure) :
    onDisk malformed arguments disk stdin = fail malformed disk failure := by
  rw [sourceText] at hfailure
  rw [onDisk, harguments]
  simp only [execute, hfailure]

/-- A run that has an output ends with its code, unless the output cannot be written. -/
theorem onDisk_of_evaluate (harguments : parse arguments = .run c) {output : Output}
    (hok : c.evaluate disk.readText (c.sourceText disk stdin) = .ok output) (malformed : String) :
    ((onDisk malformed arguments disk stdin).stdout = "" ∧
      (onDisk malformed arguments disk stdin).disk = disk) ∨
    (onDisk malformed arguments disk stdin).code = output.code := by
  rw [sourceText] at hok
  rw [onDisk, harguments]
  simp only [execute, hok]
  cases c.output with
  | none => exact .inr rfl
  | some path =>
    cases hwrite : disk.write path output.text.toUTF8 with
    | error fault =>
      simp only [hwrite]
      exact .inl ⟨rfl, rfl⟩
    | ok written =>
      simp only [hwrite]
      exact .inr trivial

private theorem onDisk_of_ok (harguments : parse arguments = .run c) (houtput : c.output = none)
    {output : Output} (hok : c.evaluate disk.readText (c.sourceText disk stdin) = .ok output) :
    onDisk malformed arguments disk stdin = ⟨output.code, output.text, "", disk⟩ := by
  rw [sourceText] at hok
  rw [onDisk, harguments]
  simp only [execute, hok, houtput]

private theorem code_of_listed {listing : Option (Except Fault String)} {output : Output}
    (houtput : listed listing = .ok output) : output.code = 0 := by
  cases listing with
  | none =>
    cases houtput
    rfl
  | some made =>
    cases made with
    | error fault => cases houtput
    | ok text =>
      cases houtput
      rfl

/-- Only a report of errors is written by a run that does not end well. -/
theorem exists_report_of_produce {registry : Registry} {text : String} {output : Output}
    (houtput : c.produce registry text = .ok output) (hcode : output.code ≠ 0) :
    c.stage = .result ∧ ∃ report : Report, report.errors ≠ [] ∧
      output = ⟨report.encode.pretty ++ "\n", 1⟩ := by
  unfold produce at houtput
  cases hstage : c.stage with
  | hdl =>
    simp only [hstage] at houtput
    split at houtput
    next =>
      rw [← Except.ok.inj houtput] at hcode
      exact absurd rfl hcode
    next => cases houtput
  | result =>
    simp only [hstage] at houtput
    rw [← Except.ok.inj houtput] at hcode ⊢
    refine ⟨rfl, respond registry c.header text, ?_⟩
    by_cases hok : (respond registry c.header text).isOk = true
    · exact absurd (if_pos hok) hcode
    · rw [if_neg hok]
      refine ⟨?_, rfl⟩
      simpa [Report.isOk] using hok
  | graph | connections =>
    simp only [hstage] at houtput
    split at houtput
    next => cases houtput
    next =>
      split at houtput
      next => cases houtput
      next => exact absurd (code_of_listed houtput) hcode
  | buildInfo =>
    simp only [hstage] at houtput
    rw [← Except.ok.inj houtput] at hcode
    exact absurd rfl hcode

private theorem exists_report_of_evaluate {read : String → Except FileFault String}
    {source : Except FileFault String} {output : Output}
    (houtput : c.evaluate read source = .ok output) (hcode : output.code ≠ 0) :
    c.stage = .result ∧ ∃ report : Report, report.errors ≠ [] ∧
      output = ⟨report.encode.pretty ++ "\n", 1⟩ := by
  obtain ⟨registry, -, hproduced⟩ := bind_eq_ok_iff.mp houtput
  cases source with
  | error fault => cases hproduced
  | ok text => exact exists_report_of_produce hproduced hcode

/-- A run that does not end well writes nothing, unless it is one that reports errors. -/
theorem onDisk_of_code_ne_zero (hcode : (onDisk malformed arguments disk stdin).code ≠ 0) :
    ((onDisk malformed arguments disk stdin).stdout = "" ∧
      (onDisk malformed arguments disk stdin).disk = disk) ∨
    ∃ (c : Command) (report : Report), parse arguments = .run c ∧ c.stage = .result ∧
      report.errors ≠ [] ∧ (onDisk malformed arguments disk stdin).code = 1 ∧
      c.evaluate disk.readText (c.sourceText disk stdin) =
        .ok ⟨report.encode.pretty ++ "\n", 1⟩ := by
  cases harguments : parse arguments with
  | misuse =>
    rw [onDisk, harguments]
    exact .inl ⟨rfl, rfl⟩
  | version =>
    rw [onDisk, harguments] at hcode
    exact absurd rfl hcode
  | run c =>
    cases hevaluate : c.evaluate disk.readText (c.sourceText disk stdin) with
    | error failure =>
      rw [onDisk_of_error harguments hevaluate]
      exact .inl ⟨rfl, rfl⟩
    | ok output =>
      rcases onDisk_of_evaluate harguments hevaluate malformed with hfails | hends
      · exact .inl hfails
      · rw [hends] at hcode ⊢
        obtain ⟨hstage, report, herrors, rfl⟩ := exists_report_of_evaluate hevaluate hcode
        exact .inr ⟨c, report, rfl, hstage, herrors, rfl, hevaluate⟩

variable {hdl result info : Outcome}

private theorem identified_of_digested
    (hdigested : ∀ hash, info.code = 0 ∧ info.Digests (some hash) ↔
      ∃ text, hdl.Emits text ∧ hash = Sha256.ofText text) {text : String}
    (hunique : ∀ other, hdl.Emits other → Sha256.ofText other = Sha256.ofText text → other = text) :
    hdl.Emits text ↔ info.code = 0 ∧ info.Digests (some (Sha256.ofText text)) := by
  rw [hdigested]
  constructor
  · intro hemits
    exact ⟨text, hemits, rfl⟩
  · intro hhash
    obtain ⟨other, hemits, hsame⟩ := hhash
    rwa [hunique other hemits hsame.symm] at hemits

private theorem agree_of_failure (hhdl : hdl.code = 2) (hresult : result.code = 2)
    (hinfo : info.code = 2) (hempty : result.stdout = "") : Agree hdl result info := by
  have hdigested : ∀ hash, info.code = 0 ∧ info.Digests (some hash) ↔
      ∃ text, hdl.Emits text ∧ hash = Sha256.ofText text := by
    simp [Outcome.Emits, hhdl, hinfo]
  constructor
  case codes => exact .inr (.inr ⟨hhdl, hresult, hinfo⟩)
  case reported => simp [Outcome.Emits, hhdl, hresult]
  case digested => exact hdigested
  case identified => exact fun text => identified_of_digested hdigested
  case refused => simp [hhdl]
  case exclusive => exact fun r hr => absurd hr (Outcome.not_reports_of_empty hempty r)

private theorem agree_of_problem {e : ErrorRecord} {p : Provenance} (hhdl : hdl.code = 1)
    (hresult : result.code = 1) (hreport : result.stdout = (Report.mk "" [e]).encode.pretty ++ "\n")
    (hinfo : info.code = 0)
    (hprovenance : info.stdout = p.text) (hnone : p.output = none) : Agree hdl result info := by
  have hdigested : ∀ hash, info.code = 0 ∧ info.Digests (some hash) ↔
      ∃ text, hdl.Emits text ∧ hash = Sha256.ofText text := by
    simp [Outcome.Emits, hhdl, Outcome.digests_iff hprovenance, hnone]
  constructor
  case codes => exact .inr (.inl ⟨hhdl, hresult, hinfo⟩)
  case reported => simp [Outcome.Emits, hhdl, hresult]
  case digested => exact hdigested
  case identified => exact fun text => identified_of_digested hdigested
  case refused =>
    intro _
    refine ⟨hresult, ⟨e, (Outcome.reports_iff hreport).mpr rfl⟩, hinfo, ?_⟩
    exact (Outcome.digests_iff hprovenance).mpr hnone.symm
  case exclusive =>
    intro r hr
    rw [(Outcome.reports_iff hreport).mp hr]
    simp

private theorem agree_of_text {text : String} {p : Provenance} (htext : text ≠ "")
    (hhdl : hdl.Emits text) (hresult : result.code = 0)
    (hreport : result.stdout = (Report.mk text []).encode.pretty ++ "\n") (hinfo : info.code = 0)
    (hprovenance : info.stdout = p.text) (hhash : p.output = some (Sha256.ofText text)) :
    Agree hdl result info := by
  have hemits : ∀ other, hdl.Emits other ↔ other = text := by
    intro other
    rw [Outcome.Emits, hhdl.2]
    simp [hhdl.1, eq_comm]
  have hdigested : ∀ hash, info.code = 0 ∧ info.Digests (some hash) ↔
      ∃ text, hdl.Emits text ∧ hash = Sha256.ofText text := by
    simp [hemits, hinfo, Outcome.digests_iff hprovenance, hhash]
  constructor
  case codes => exact .inl ⟨hhdl.1, hresult, hinfo⟩
  case reported =>
    intro other
    rw [hemits, Outcome.reports_iff hreport]
    simp [hresult]
  case digested => exact hdigested
  case identified => exact fun text => identified_of_digested hdigested
  case refused => simp [hhdl.1]
  case exclusive =>
    intro r hr
    rw [(Outcome.reports_iff hreport).mp hr]
    simp [htext]

/-- Runs that come to their stages agree, whether or not the source can be lowered. -/
theorem agree_of_produce {arguments : Stage → List String} {registry : Registry} {source : String}
    (harguments : ∀ s, parse (arguments s) = .run { c with stage := s }) (houtput : c.output = none)
    (hproduce : ∀ s, evaluate { c with stage := s } disk.readText (c.sourceText disk stdin) =
      produce { c with stage := s } registry source) :
    Agree (onDisk malformed (arguments .hdl) disk stdin)
      (onDisk malformed (arguments .result) disk stdin)
      (onDisk malformed (arguments .buildInfo) disk stdin) := by
  cases hlower : lowerText registry c.header source with
  | error problem =>
    have hhdl : evaluate { c with stage := .hdl } disk.readText (c.sourceText disk stdin) =
        .error (.lowering problem) := by
      rw [hproduce]
      simp only [produce, hlower]
    have hresult : evaluate { c with stage := .result } disk.readText (c.sourceText disk stdin) =
        .ok ⟨(Report.mk "" [problem.record]).encode.pretty ++ "\n", 1⟩ := by
      rw [hproduce]
      simp only [produce, respond, hlower]
      rfl
    have hinfo : evaluate { c with stage := .buildInfo } disk.readText (c.sourceText disk stdin) =
        .ok ⟨(Provenance.of source registry none).text, 0⟩ := by
      rw [hproduce]
      simp only [produce, hlower]
      rfl
    rw [onDisk_of_error (harguments .hdl) hhdl, onDisk_of_ok (harguments .result) houtput hresult,
      onDisk_of_ok (harguments .buildInfo) houtput hinfo]
    exact agree_of_problem rfl rfl rfl rfl rfl rfl
  | ok text =>
    have hhdl : evaluate { c with stage := .hdl } disk.readText (c.sourceText disk stdin) =
        .ok ⟨text, 0⟩ := by
      rw [hproduce]
      simp only [produce, hlower]
    have hresult : evaluate { c with stage := .result } disk.readText (c.sourceText disk stdin) =
        .ok ⟨(Report.mk text []).encode.pretty ++ "\n", 0⟩ := by
      rw [hproduce]
      simp only [produce, respond, hlower]
      rfl
    have hinfo : evaluate { c with stage := .buildInfo } disk.readText (c.sourceText disk stdin) =
        .ok ⟨(Provenance.of source registry (some text)).text, 0⟩ := by
      rw [hproduce]
      simp only [produce, hlower]
      rfl
    rw [onDisk_of_ok (harguments .hdl) houtput hhdl,
      onDisk_of_ok (harguments .result) houtput hresult,
      onDisk_of_ok (harguments .buildInfo) houtput hinfo]
    exact agree_of_text (lowerText_ne_empty hlower) ⟨rfl, rfl⟩ rfl rfl rfl rfl rfl

end

/-- Runs that differ in their stage only and write to the standard output tell the same of the
source: its text, a report and a digest of the text, or no text, an error and no digest. Arguments
with another stage in the place of one ask for such a run. Whatever the arguments, a run that fails
writes nothing at all. -/
theorem onDisk_stages_agree (malformed : String) (disk : Disk) (stdin : ByteArray) :
    (∀ (arguments : Stage → List String) (c : Command),
      (∀ s, parse (arguments s) = .run { c with stage := s }) → c.output = none →
        Agree (onDisk malformed (arguments .hdl) disk stdin)
          (onDisk malformed (arguments .result) disk stdin)
          (onDisk malformed (arguments .buildInfo) disk stdin)) ∧
    (∀ (before after : List String) (ask : Stage → List String) (c : Command) (s : Stage),
      "--" ∉ before → (∀ t, Asks t (ask t)) → parse (before ++ (ask s ++ after)) = .run c →
        ∀ t, parse (before ++ (ask t ++ after)) = .run { c with stage := t }) ∧
    (∀ arguments c failure, parse arguments = .run c →
      c.evaluate disk.readText (c.sourceText disk stdin) = .error failure →
        ((onDisk malformed arguments disk stdin).code = 1 ∨
          (onDisk malformed arguments disk stdin).code = 2) ∧
        (onDisk malformed arguments disk stdin).stdout = "" ∧
        (onDisk malformed arguments disk stdin).disk = disk) ∧
    ∀ arguments, (onDisk malformed arguments disk stdin).code ≠ 0 →
      ((onDisk malformed arguments disk stdin).stdout = "" ∧
        (onDisk malformed arguments disk stdin).disk = disk) ∨
      ∃ (c : Command) (report : Report), parse arguments = .run c ∧ c.stage = .result ∧
        report.errors ≠ [] ∧ (onDisk malformed arguments disk stdin).code = 1 ∧
        c.evaluate disk.readText (c.sourceText disk stdin) =
          .ok ⟨report.encode.pretty ++ "\n", 1⟩ := by
  refine ⟨?_, ?_, ?_, ?_⟩
  · intro arguments c harguments houtput
    rcases evaluate_withStage c disk.readText (c.sourceText disk stdin) with
      ⟨failure, hcode, hfailure⟩ | ⟨registry, source, hproduce⟩
    · have hfails : ∀ s, onDisk malformed (arguments s) disk stdin = fail malformed disk failure :=
        fun s => onDisk_of_error (harguments s) (hfailure s)
      rw [hfails, hfails, hfails]
      exact agree_of_failure hcode hcode hcode rfl
    · exact agree_of_produce harguments houtput hproduce
  · intro before after ask c s hbefore hask hrun t
    exact parseFrom_asks (hask s) (hask t) after before {} c hbefore hrun
  · intro arguments c failure harguments hfailure
    rw [onDisk_of_error harguments hfailure]
    refine ⟨?_, rfl, rfl⟩
    cases failure with
    | file | library | registry => exact .inr rfl
    | lowering | pipeline => exact .inl rfl
  · exact fun arguments => onDisk_of_code_ne_zero

/-- The text of a netlist with one controller, which is on a bus and powered from another net. -/
def controllerBoard : String :=
  "\x7b\"graph\":\x7b\"nodes\":\x7b\"u\":\x7b\"data\":\x7b\"name\":\"mcu\",\"type\":\"Mcu\",
    \"ports\":[\x7b\"name\":\"i2c\",\"type\":\"I2cController\",\"array\":false\x7d,
    \x7b\"name\":\"pwr\",\"type\":\"VoltageSink\",\"array\":false\x7d]\x7d\x7d\x7d\x7d,\"labels\":
    \x7b\"1\":\x7b\"labelName\":\"bus\",\"nodeId\":\"u\",\"portIdx\":0\x7d,
    \"2\":\x7b\"labelName\":\"v\",\"nodeId\":\"u\",\"portIdx\":1\x7d\x7d\x7d"

/-- What it is lowered to, with a support block. -/
def controllerModule : String :=
  "class MyModule(SimpleBoardTop):\n  def __init__(self):\n    super().__init__()\n\n" ++
  "    self.mcu = self.Block(Mcu())\n" ++
  "    self._implicit_i2c_pullup_bus = self.Block(I2cPullup())\n\n" ++
  "    self.connect(self.mcu.i2c, self._implicit_i2c_pullup_bus.i2c)\n" ++
  "    self.connect(self.mcu.pwr, self._implicit_i2c_pullup_bus.pwr)\n"

private theorem textOf_toUTF8 (text : String) : textOf text.toUTF8 = .ok text := by
  have hvalid : text.toUTF8.IsValidUTF8 := text.isValidUTF8
  rw [textOf, String.fromUTF8?, dif_pos hvalid]
  rfl

private theorem sourceText_dash {c : Command} (hc : c.source = "-") (disk : Disk) (text : String) :
    c.sourceText disk text.toUTF8 = .ok text := by
  have hsplit : "-".splitOn "/" = ["-"] := by
    rw [String.splitOn, if_neg (by decide), String.splitOnAux, if_neg (by decide),
      if_neg (by decide), String.splitOnAux, if_pos (by decide)]
    rfl
  have hstdin : readsStdin "-" = true := by
    rw [readsStdin, Disk.parts, hsplit]
    rfl
  rw [sourceText, hc, if_pos hstdin, textOf_toUTF8]

set_option maxRecDepth 10000 in
private theorem lowerText_controllerBoard :
    lowerText .builtin {} controllerBoard = .ok controllerModule := by
  -- The characters are taken off the literal first; decoding them by evaluation is slow.
  have hchars : controllerBoard.toList = _ := String.toList_ofList
  rw [lowerText, Netlist.read?, Json.Document.read?, hchars]
  exact eq_ok_of_toOption_eq_some (by decide +kernel)

private theorem onDisk_emits {text emitted : String}
    (hlower : lowerText .builtin {} text = .ok emitted) :
    (onDisk "" ["-", "--emit", "hdl"] ⟨[]⟩ text.toUTF8).Emits emitted := by
  have hproduce : produce { source := "-" } .builtin text = .ok ⟨emitted, 0⟩ := by
    simp only [produce, hlower]
  have hevaluate : evaluate { source := "-" } (Disk.mk []).readText
      (sourceText { source := "-" } ⟨[]⟩ text.toUTF8) = .ok ⟨emitted, 0⟩ := by
    rw [sourceText_dash rfl]
    exact hproduce
  rw [onDisk_of_ok (c := { source := "-" }) rfl rfl hevaluate]
  exact ⟨rfl, rfl⟩

theorem onDisk_stages_agree_controllerBoard :
    (Agree (onDisk "" ["-", "--emit", "hdl"] ⟨[]⟩ controllerBoard.toUTF8)
      (onDisk "" ["-", "--emit", "result"] ⟨[]⟩ controllerBoard.toUTF8)
      (onDisk "" ["-", "--emit", "build-info"] ⟨[]⟩ controllerBoard.toUTF8) ∧
    (onDisk "" ["-", "--emit", "hdl"] ⟨[]⟩ controllerBoard.toUTF8).Emits controllerModule) ∧
    parse ["-", "--emit=graph", "-o", "out"] = .run ⟨"-", some "out", .graph, none, {}, false⟩ ∧
    (onDisk "" ["-", "--emit=hdl", "-o", "out"] ⟨[]⟩ "".toUTF8).code ≠ 0 ∧
    (onDisk "" ["-", "--emit=hdl", "-o", "out"] ⟨[]⟩ "".toUTF8).stdout = "" ∧
    (onDisk "" ["-", "--emit=hdl", "-o", "out"] ⟨[]⟩ "".toUTF8).disk = ⟨[]⟩ := by
  have hrun : parse ["-", "--emit=hdl", "-o", "out"] =
      .run ⟨"-", some "out", .hdl, none, {}, false⟩ := rfl
  refine ⟨⟨?_, ?_⟩, ?_, ?_⟩
  · refine (onDisk_stages_agree "" ⟨[]⟩ controllerBoard.toUTF8).1 (fun s => ["-", "--emit", s.flag])
      { source := "-" } ?_ rfl
    intro s
    cases s <;> rfl
  · exact onDisk_emits lowerText_controllerBoard
  · exact (onDisk_stages_agree "" ⟨[]⟩ "".toUTF8).2.1 ["-"] ["-o", "out"]
      (fun s => ["--emit=" ++ s.flag]) _ .hdl (by decide) (fun _ => .joined) hrun .graph
  · have hevaluate : evaluate ⟨"-", some "out", .hdl, none, {}, false⟩ (Disk.mk []).readText
        (sourceText ⟨"-", some "out", .hdl, none, {}, false⟩ ⟨[]⟩ "".toUTF8) =
          .error (.lowering .format) := by
      rw [sourceText_dash rfl]
      rfl
    obtain ⟨hcode, hleaves⟩ :=
      (onDisk_stages_agree "" ⟨[]⟩ "".toUTF8).2.2.1 _ _ _ hrun hevaluate
    refine ⟨?_, hleaves⟩
    omega

end Command

end Schematic
