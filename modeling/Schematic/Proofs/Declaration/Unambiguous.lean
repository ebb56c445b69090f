import Schematic.Declaration.Text
import Schematic.Proofs.Argument.Literals
import Schematic.Proofs.Declaration.Connects

namespace Schematic

open Text (isIdentifier continuesIdentifier Stops Separable stops_append stops_of_head?
  stops_identifier separable_identifier identifier_append_inj identifier_append_ne)

/-- An argument with a proper name and a literal. -/
structure Argument.Written.Proper (w : Written) : Prop where
  name : isIdentifier w.name = true
  value : IsLiteral w.value.toList

namespace Declaration

def Expression.Proper (e : Expression) : Prop :=
  ∀ name ∈ e.names, isIdentifier name = true

structure Export.Proper (e : Export) : Prop where
  name : isIdentifier e.name = true
  adaptTo : isIdentifier e.adaptTo = true

structure Connector.Proper (c : Connector) : Prop where
  className : isIdentifier c.className = true
  wrappedClass : isIdentifier c.wrappedClass = true
  arguments : ∀ a ∈ c.arguments, a.Proper
  exports : ∀ e ∈ c.exports, e.Proper

structure Block.Proper (b : Block) : Prop where
  name : isIdentifier b.name = true
  className : isIdentifier b.className = true
  arguments : ∀ a ∈ b.arguments, a.Proper

/-- The label is free, since it is not written. -/
def Connect.Proper (c : Connect) : Prop :=
  ∀ m ∈ c.members, m.Proper

end Declaration

/-- All that is written of a design are identifiers and literals. -/
structure Declarations.Proper (d : Declarations) : Prop where
  name : isIdentifier d.header.name = true
  base : isIdentifier d.header.base = true
  connectors : ∀ c ∈ d.connectors, c.Proper
  blocks : ∀ b ∈ d.blocks, b.Proper
  connects : ∀ c ∈ d.connects, c.Proper

/-- The text goes on with a closing bracket. -/
def Closes (rest : List Char) : Prop :=
  rest.head? = some ')'

theorem Argument.separable_written :
    Separable Written.Proper (fun w => w.text.toList) (Stops isNumberMark) := by
  rintro ⟨name, value⟩ ⟨name', value'⟩ r s hv hw hr hs heq
  simp only [Written.text, String.toList_append, List.append_assoc] at heq
  obtain ⟨(rfl : name = name'), hmore⟩ := identifier_append_inj hv.name hw.name rfl heq
  obtain ⟨hvalue, hrest⟩ := separable_literal _ _ r s hv.value hw.value hr hs hmore
  obtain rfl : value = value' := String.toList_inj.mp hvalue
  exact ⟨rfl, hrest⟩

namespace Declaration

private theorem separable_arguments :
    Separable (fun ws : List Argument.Written => ∀ w ∈ ws, w.Proper)
      (fun ws => (argumentsText ws).toList) Closes := by
  simp only [argumentsText, String.toList_intercalate, List.map_map, Function.comp_def]
  apply Argument.separable_written.intercalate
  · intro r hr
    exact stops_of_head? hr rfl
  · intro r
    exact stops_of_head? rfl rfl
  · intro w r s hw hs
    simp only [Argument.Written.text, String.toList_append, List.append_assoc]
    exact identifier_append_ne hw.name (by rw [hs]; rfl)
  · rintro r _ hs rfl
    cases hs

/-- A reference is written as two names and what follows them. -/
def Expression.parts : Expression → String × String × List Char
  | .port block name => (block, name, [])
  | .request block parent slot =>
    (block, parent, ".request('".toList ++ (slot.toList ++ "')".toList))
  | .requestVector block parent slot =>
    (block, parent, ".request_vector('".toList ++ (slot.toList ++ "')".toList))

theorem Expression.toList_text (e : Expression) :
    e.text.toList = "self.".toList ++ (e.parts.1.toList ++ (".".toList ++
      (e.parts.2.1.toList ++ e.parts.2.2))) := by
  unfold text parts
  cases e <;> simp only [String.toList_append, List.append_assoc, List.append_nil]

theorem Expression.Proper.parts {e : Expression} (he : e.Proper) :
    isIdentifier e.parts.1 = true ∧ isIdentifier e.parts.2.1 = true := by
  have hnames : e.parts.1 ∈ e.names ∧ e.parts.2.1 ∈ e.names := by
    cases e <;> simp [names, Expression.parts]
  exact ⟨he _ hnames.1, he _ hnames.2⟩

/-- A reference may go on with a further name after a point. -/
def goesOn (c : Char) : Bool :=
  continuesIdentifier c || c == '.'

private theorem stops_suffix {e : Expression} {r : List Char} (hr : Stops goesOn r) :
    Stops continuesIdentifier (e.parts.2.2 ++ r) := by
  cases e with
  | port block name =>
    intro c hc
    have hstop := hr c hc
    rw [goesOn, Bool.or_eq_false_iff] at hstop
    exact hstop.1
  | request block parent slot => exact stops_identifier rfl r
  | requestVector block parent slot => exact stops_identifier rfl r

private theorem head?_ne_point {r : List Char} (hr : Stops goesOn r) : r.head? ≠ some '.' := by
  intro hpoint
  have hstop := hr '.' hpoint
  rw [goesOn, Bool.or_eq_false_iff] at hstop
  cases hstop.2

/-- The ends of references tell their forms apart. -/
theorem Expression.eq_of_parts {a b : Expression} {r s : List Char} (ha : a.Proper) (hb : b.Proper)
    (hr : Stops goesOn r) (hs : Stops goesOn s) (hblock : a.parts.1 = b.parts.1)
    (hname : a.parts.2.1 = b.parts.2.1) (heq : a.parts.2.2 ++ r = b.parts.2.2 ++ s) :
    a = b ∧ r = s := by
  have hslot : ∀ {x y : String}, x ∈ a.names → y ∈ b.names →
      x.toList ++ ("')".toList ++ r) = y.toList ++ ("')".toList ++ s) → x = y ∧ r = s := by
    intro x y hx hy hslots
    exact identifier_append_inj (ha x hx) (hb y hy) rfl hslots
  cases a with
  | port block name =>
    cases b with
    | port block' name' =>
      cases hblock
      cases hname
      exact ⟨rfl, heq⟩
    | request | requestVector => exact absurd (congrArg List.head? heq) (head?_ne_point hr)
  | request block parent slot =>
    cases b with
    | port => exact absurd (congrArg List.head? heq.symm) (head?_ne_point hs)
    | request block' parent' slot' =>
      simp only [parts, List.append_assoc] at hblock hname heq
      obtain ⟨rfl, hrest⟩ := hslot (by simp [names]) (by simp [names]) (List.append_cancel_left heq)
      exact ⟨by rw [hblock, hname], hrest⟩
    | requestVector => simp [parts] at heq
  | requestVector block parent slot =>
    cases b with
    | port => exact absurd (congrArg List.head? heq.symm) (head?_ne_point hs)
    | request => simp [parts] at heq
    | requestVector block' parent' slot' =>
      simp only [parts, List.append_assoc] at hblock hname heq
      obtain ⟨rfl, hrest⟩ := hslot (by simp [names]) (by simp [names]) (List.append_cancel_left heq)
      exact ⟨by rw [hblock, hname], hrest⟩

theorem Expression.separable :
    Separable Expression.Proper (fun e => e.text.toList) (Stops goesOn) := by
  intro a b r s ha hb hr hs heq
  simp only [Expression.toList_text, List.append_assoc] at heq
  obtain ⟨hblock, hmore⟩ := identifier_append_inj ha.parts.1 hb.parts.1 rfl
    (List.append_cancel_left heq)
  obtain ⟨hname, hrest⟩ := separable_identifier _ _ _ _ ha.parts.2 hb.parts.2 (stops_suffix hr)
    (stops_suffix hs) hmore
  exact Expression.eq_of_parts ha hb hr hs hblock hname hrest

private theorem separable_members :
    Separable (fun es : List Expression => ∀ e ∈ es, e.Proper)
      (fun es => (String.intercalate ", " (es.map (·.text))).toList) Closes := by
  simp only [String.toList_intercalate, List.map_map, Function.comp_def]
  apply Expression.separable.intercalate
  · intro r hr
    exact stops_of_head? hr (by decide +kernel)
  · intro r
    exact stops_of_head? rfl (by decide +kernel)
  · rintro e r _ he hs rfl
    rw [Expression.toList_text] at hs
    cases hs
  · rintro r _ hs rfl
    cases hs

theorem Export.toList_text (e : Export) :
    e.text.toList = "    self.".toList ++ (e.name.toList ++
      (" = self.Export(self._conn.pins.request('".toList ++ ((Decimal.natural e.pin).toList ++
      ("').adapt_to(".toList ++ (e.adaptTo.toList ++ "()), optional=True)\n".toList))))) := by
  unfold Export.text
  simp only [String.toList_append, List.append_assoc]

theorem Export.separable : Separable Export.Proper (fun e => e.text.toList) fun _ => True := by
  rintro ⟨name, pin, adaptTo⟩ ⟨name', pin', adaptTo'⟩ r s ha hb _ _ heq
  simp only [Export.toList_text, List.append_assoc] at heq
  obtain ⟨(rfl : name = name'), hpin⟩ := identifier_append_inj ha.name hb.name rfl
    (List.append_cancel_left heq)
  obtain ⟨rfl, hadapt⟩ := Decimal.separable_natural pin pin' _ _ trivial trivial
    (stops_append rfl rfl _) (stops_append rfl rfl _) hpin
  obtain ⟨(rfl : adaptTo = adaptTo'), hrest⟩ := identifier_append_inj ha.adaptTo hb.adaptTo rfl
    (List.append_cancel_left hadapt)
  exact ⟨rfl, hrest⟩

/-- A class with its arguments, up to the end of the line. -/
theorem call_inj {class₁ class₂ : String} (h₁ : isIdentifier class₁ = true)
    (h₂ : isIdentifier class₂ = true) {args₁ args₂ : List Argument.Written}
    (hargs₁ : ∀ w ∈ args₁, w.Proper) (hargs₂ : ∀ w ∈ args₂, w.Proper) {r s : List Char}
    (heq : class₁.toList ++ ("(".toList ++ ((argumentsText args₁).toList ++ ("))\n".toList ++ r))) =
      class₂.toList ++ ("(".toList ++ ((argumentsText args₂).toList ++ ("))\n".toList ++ s)))) :
    class₁ = class₂ ∧ args₁ = args₂ ∧ r = s := by
  obtain ⟨hclass, hmore⟩ := identifier_append_inj h₁ h₂ rfl heq
  obtain ⟨hargs, hrest⟩ := separable_arguments args₁ args₂ _ _ hargs₁ hargs₂ (by rfl) (by rfl) hmore
  exact ⟨hclass, hargs, List.append_cancel_left hrest⟩

theorem Block.toList_text (b : Block) :
    b.text.toList = "    self.".toList ++ (b.name.toList ++ (" = self.Block(".toList ++
      (b.className.toList ++ ("(".toList ++ ((argumentsText b.arguments).toList ++
      "))\n".toList))))) := by
  unfold Block.text
  simp only [String.toList_append, List.append_assoc]

theorem Block.separable : Separable Block.Proper (fun b => b.text.toList) fun _ => True := by
  rintro ⟨name, className, args⟩ ⟨name', className', args'⟩ r s ha hb _ _ heq
  simp only [Block.toList_text, List.append_assoc] at heq
  obtain ⟨(rfl : name = name'), hcall⟩ := identifier_append_inj ha.name hb.name rfl
    (List.append_cancel_left heq)
  obtain ⟨rfl, rfl, hrest⟩ := call_inj ha.className hb.className ha.arguments hb.arguments hcall
  exact ⟨rfl, hrest⟩

theorem Connect.toList_text (c : Connect) :
    c.text.toList = "    self.connect(".toList ++
      ((String.intercalate ", " (c.members.map (·.text))).toList ++ ")\n".toList) := by
  unfold Connect.text
  rw [String.toList_append, String.toList_append, List.append_assoc]

/-- The label is not written. -/
theorem separable_connect :
    Separable (fun es : List Expression => ∀ e ∈ es, e.Proper)
      (fun es => (Connect.text ⟨"", es⟩).toList) fun _ => True := by
  intro a b r s ha hb _ _ heq
  simp only [Connect.toList_text, List.append_assoc] at heq
  obtain ⟨hmembers, hrest⟩ := separable_members a b _ _ ha hb (by rfl) (by rfl)
    (List.append_cancel_left heq)
  exact ⟨hmembers, List.append_cancel_left hrest⟩

/-- Lines are told from a text that does not start like one of them. -/
theorem separable_lines {α : Type} {good : α → Prop} {text : α → String}
    (hline : Separable good (fun a => (text a).toList) fun _ => True) {stop : List Char → Prop}
    (hstart : ∀ a r, good a → ¬ stop ((text a).toList ++ r)) :
    Separable (fun as : List α => ∀ a ∈ as, good a)
      (fun as => (String.join (as.map text)).toList) stop := by
  simp only [String.toList_join, List.flatMap_map]
  refine hline.flatMap (fun _ _ => trivial) (fun _ _ _ => trivial) ?_
  rintro a r _ ha hs rfl
  exact hstart a r ha hs

/-- The text goes on with an empty line. -/
def Breaks (rest : List Char) : Prop :=
  rest.head? = some '\n'

private theorem separable_exports :
    Separable (fun es : List Export => ∀ e ∈ es, e.Proper)
      (fun es => (String.join (es.map (·.text))).toList) Breaks := by
  refine separable_lines Export.separable fun e r _ hbreaks => ?_
  rw [Export.toList_text] at hbreaks
  cases hbreaks

private theorem separable_blocks :
    Separable (fun bs : List Block => ∀ b ∈ bs, b.Proper)
      (fun bs => (String.join (bs.map (·.text))).toList) Breaks := by
  refine separable_lines Block.separable fun b r _ hbreaks => ?_
  rw [Block.toList_text] at hbreaks
  cases hbreaks

/-- The connects with these members. -/
def connectsText (ms : List (List Expression)) : List Char :=
  (String.join (ms.map fun m => Connect.text ⟨"", m⟩)).toList

private theorem separable_connects :
    Separable (fun ms : List (List Expression) => ∀ m ∈ ms, ∀ e ∈ m, e.Proper) connectsText
      (· = []) := by
  refine separable_lines separable_connect fun m r _ hend => ?_
  rw [Connect.toList_text] at hend
  cases hend

/-- Both classes open their bodies like this. -/
def classBody (rest : List Char) : List Char :=
  "  def __init__(self):\n".toList ++ ("    super().__init__()\n".toList ++ rest)

theorem classBody_append (r s : List Char) : classBody r ++ s = classBody (r ++ s) := by
  unfold classBody
  rw [List.append_assoc, List.append_assoc]

private theorem classBody_inj {r s : List Char} (heq : classBody r = classBody s) : r = s :=
  List.append_cancel_left (List.append_cancel_left heq)

theorem Connector.toList_text (c : Connector) :
    (c.text ++ "\n\n").toList = "class ".toList ++ (c.className.toList ++ ("(Block):\n".toList ++
      classBody ("    self._conn = self.Block(".toList ++ (c.wrappedClass.toList ++ ("(".toList ++
      ((argumentsText c.arguments).toList ++ ("))\n".toList ++
      ((String.join (c.exports.map (·.text))).toList ++ ("\n".toList ++
      ("globals()['__builtins__']['".toList ++ (c.className.toList ++ ("'] = ".toList ++
      (c.className.toList ++ ("\n".toList ++ "\n\n".toList)))))))))))))) := by
  unfold Connector.text classBody
  simp only [String.toList_append, List.append_assoc]

theorem Connector.separable :
    Separable Connector.Proper (fun c => (c.text ++ "\n\n").toList) fun _ => True := by
  rintro ⟨className, wrapped, args, exports⟩ ⟨className', wrapped', args', exports'⟩
  intro r s ha hb _ _ heq
  simp only [Connector.toList_text, List.append_assoc, classBody_append] at heq
  obtain ⟨(rfl : className = className'), hbody⟩ :=
    identifier_append_inj ha.className hb.className rfl (List.append_cancel_left heq)
  obtain ⟨rfl, rfl, hexports⟩ := call_inj ha.wrappedClass hb.wrappedClass ha.arguments hb.arguments
    (List.append_cancel_left (classBody_inj hbody))
  obtain ⟨rfl, hrest⟩ := separable_exports exports exports' _ _ ha.exports hb.exports (by rfl)
    (by rfl) hexports
  simp only [List.append_cancel_left_eq] at hrest
  exact ⟨rfl, hrest⟩

/-- The module class, up to its blocks. -/
def moduleText (header : ModuleHeader) (body : List Char) : List Char :=
  "class ".toList ++ (header.name.toList ++ ("(".toList ++ (header.base.toList ++ ("):\n".toList ++
    classBody ("\n".toList ++ body)))))

/-- The text goes on with the module class. -/
def OpensModule (rest : List Char) : Prop :=
  ∃ header body, isIdentifier header.name = true ∧ isIdentifier header.base = true ∧
    rest = moduleText header body

/-- Wrappers have a base of their own, but the module may have it too. The first line of the body
tells them apart. -/
theorem Connector.Proper.not_opensModule {c : Connector} (hc : c.Proper) (r : List Char) :
    ¬ OpensModule ((c.text ++ "\n\n").toList ++ r) := by
  rintro ⟨header, body, hname, hbase, heq⟩
  unfold moduleText at heq
  simp only [Connector.toList_text, List.append_assoc, classBody_append] at heq
  obtain ⟨-, hbases⟩ := separable_identifier _ _ _ _ hc.className hname (stops_identifier rfl _)
    (stops_identifier rfl _) (List.append_cancel_left heq)
  have hsplit : "(".toList ++ ("Block".toList ++ ("):\n".toList ++ _)) = "(".toList ++ _ := hbases
  obtain ⟨-, hbody⟩ := identifier_append_inj (by decide) hbase rfl (List.append_cancel_left hsplit)
  cases classBody_inj hbody

private theorem separable_connectors :
    Separable (fun cs : List Connector => ∀ c ∈ cs, c.Proper)
      (fun cs => (String.join (cs.map fun c => c.text ++ "\n\n")).toList) OpensModule :=
  separable_lines Connector.separable fun _ r hc => hc.not_opensModule r

private theorem moduleText_inj {h₁ h₂ : ModuleHeader} {body₁ body₂ : List Char}
    (hname₁ : isIdentifier h₁.name = true) (hbase₁ : isIdentifier h₁.base = true)
    (hname₂ : isIdentifier h₂.name = true) (hbase₂ : isIdentifier h₂.base = true)
    (heq : moduleText h₁ body₁ = moduleText h₂ body₂) : h₁ = h₂ ∧ body₁ = body₂ := by
  obtain ⟨name₁, base₁⟩ := h₁
  obtain ⟨name₂, base₂⟩ := h₂
  unfold moduleText at heq
  obtain ⟨rfl, hbases⟩ := identifier_append_inj hname₁ hname₂ rfl (List.append_cancel_left heq)
  obtain ⟨rfl, hbody⟩ := identifier_append_inj hbase₁ hbase₂ rfl hbases
  exact ⟨rfl, List.append_cancel_left (classBody_inj hbody)⟩

end Declaration

namespace Declarations

open Declaration

/-- The design with nothing for labels. -/
def unlabelled (d : Declarations) : Declarations :=
  { d with connects := d.connects.map fun c => { c with label := "" } }

private theorem toList_render (d : Declarations) :
    d.render.toList = (String.join (d.connectors.map fun c => c.text ++ "\n\n")).toList ++
      moduleText d.header ((String.join (d.blocks.map (·.text))).toList ++
        ("\n".toList ++ connectsText (d.connects.map (·.members)))) := by
  unfold render moduleText classBody connectsText
  simp only [String.toList_append, List.append_assoc, List.map_map]
  rfl

private theorem render_unlabelled (d : Declarations) : d.unlabelled.render = d.render := by
  unfold render unlabelled
  rw [List.map_map]
  rfl

private theorem unlabelled_eq {d e : Declarations} (hheader : d.header = e.header)
    (hconnectors : d.connectors = e.connectors) (hblocks : d.blocks = e.blocks)
    (hmembers : d.connects.map (·.members) = e.connects.map (·.members)) :
    d.unlabelled = e.unlabelled := by
  have hconnects : ∀ connects : List Connect, (connects.map fun c => { c with label := "" }) =
      (connects.map (·.members)).map fun m => (⟨"", m⟩ : Connect) := by
    intro connects
    rw [List.map_map]
    rfl
  rw [unlabelled, unlabelled, hheader, hconnectors, hblocks, hconnects, hconnects, hmembers]

theorem Proper.members {d : Declarations} (hd : d.Proper) :
    ∀ m ∈ d.connects.map (·.members), ∀ e ∈ m, e.Proper := by
  intro m hm
  obtain ⟨c, hc, rfl⟩ := List.mem_map.mp hm
  exact hd.connects c hc

private theorem unlabelled_eq_of_render {d e : Declarations} (hd : d.Proper) (he : e.Proper)
    (heq : d.render = e.render) : d.unlabelled = e.unlabelled := by
  have htext := congrArg String.toList heq
  rw [toList_render, toList_render] at htext
  obtain ⟨hconnectors, hmodule⟩ := separable_connectors _ _ _ _ hd.connectors he.connectors
    ⟨_, _, hd.name, hd.base, rfl⟩ ⟨_, _, he.name, he.base, rfl⟩ htext
  obtain ⟨hheader, hbody⟩ := moduleText_inj hd.name hd.base he.name he.base hmodule
  obtain ⟨hblocks, hlines⟩ := separable_blocks _ _ _ _ hd.blocks he.blocks (by rfl) (by rfl) hbody
  obtain ⟨hmembers, -⟩ := separable_connects _ _ [] [] hd.members he.members rfl rfl
    (congrArg (· ++ []) (List.append_cancel_left hlines))
  exact unlabelled_eq hheader hconnectors hblocks hmembers

/-- The text of a design determines all of it but the labels of its connects, which are not written.
Arguments are proper if they are written with literals, as those of all designs are. -/
theorem render_injective :
    (∀ kind v text, Argument.literal? kind v = some text → Argument.IsLiteral text.toList) ∧
      ∀ d e : Declarations, d.Proper → e.Proper →
        (d.render = e.render ↔ d.unlabelled = e.unlabelled) := by
  refine ⟨fun _ _ _ htext => Argument.isLiteral_of_literal? htext, fun d e hd he => ?_⟩
  constructor
  · exact unlabelled_eq_of_render hd he
  · intro heq
    rw [← d.render_unlabelled, ← e.render_unlabelled, heq]

/-- A wrapped connector on a rail that has a range, on a net with any label. -/
def railBoard (label : String) : Declarations where
  header := { base := "Block" }
  connectors := [⟨"PinHeader_J1", "PinHeader", [⟨"length", "2"⟩], [⟨"rail", 1, "VoltageSink"⟩]⟩]
  blocks := [⟨"J1", "PinHeader_J1", []⟩, ⟨"reg", "Regulator", [⟨"output", "(3.0, 3.6)"⟩]⟩]
  connects := [⟨label, [.port "J1" "rail", .request "reg" "outs" "out_0"]⟩]

private theorem proper_railBoard (label : String) : (railBoard label).Proper := by
  have hlow : Argument.IsNumber "3.0".toList :=
    ⟨by decide +kernel, List.all_eq_true.mp (by decide +kernel)⟩
  have hhigh : Argument.IsNumber "3.6".toList :=
    ⟨by decide +kernel, List.all_eq_true.mp (by decide +kernel)⟩
  have hlength : Argument.IsNumber "2".toList :=
    ⟨by decide +kernel, List.all_eq_true.mp (by decide +kernel)⟩
  have hwrapper : ∀ c ∈ (railBoard label).connectors, c.Proper :=
    List.forall_mem_singleton.mpr ⟨by decide +kernel, by decide +kernel,
      List.forall_mem_singleton.mpr ⟨by decide +kernel, .number hlength⟩,
      List.forall_mem_singleton.mpr ⟨by decide +kernel, by decide +kernel⟩⟩
  have hblocks : ∀ b ∈ (railBoard label).blocks, b.Proper := by
    refine List.forall_mem_cons.mpr ⟨⟨by decide +kernel, by decide +kernel, nofun⟩, ?_⟩
    exact List.forall_mem_singleton.mpr ⟨by decide +kernel, by decide +kernel,
      List.forall_mem_singleton.mpr ⟨by decide +kernel, .range hlow hhigh⟩⟩
  have hconnects : ∀ c ∈ (railBoard label).connects, c.Proper := by
    refine List.forall_mem_singleton.mpr (List.forall_mem_cons.mpr ⟨?_, ?_⟩)
    · unfold Expression.Proper
      decide +kernel
    · refine List.forall_mem_singleton.mpr ?_
      unfold Expression.Proper
      decide +kernel
  have hheader : isIdentifier "MyModule" = true ∧ isIdentifier "Block" = true := by decide +kernel
  exact ⟨hheader.1, hheader.2, hwrapper, hblocks, hconnects⟩

theorem render_injective_railBoard :
    (railBoard "rail").Proper ∧ (railBoard "vdd").Proper ∧ railBoard "rail" ≠ railBoard "vdd" ∧
      (railBoard "rail").render = (railBoard "vdd").render ∧
      (railBoard "rail").unlabelled = (railBoard "vdd").unlabelled := by
  have hsame : (railBoard "rail").render = (railBoard "vdd").render := by
    rw [← render_unlabelled, ← render_unlabelled (railBoard "vdd")]
    rfl
  exact ⟨proper_railBoard _, proper_railBoard _, by decide, hsame,
    (render_injective.2 _ _ (proper_railBoard _) (proper_railBoard _)).mp hsame⟩

end Declarations

end Schematic
