import Rite.Proofs.Alike

/-!
# Builtin methods are alike

Every builtin method does the same on two engines and on paired data: it reads its arguments and its
receiver, asks what paired machines answer alike, and leaves the rest to effects and to the engine.
Nothing in it looks at the number of a handle, at the call depth, at the call limit or at how much
was written.  There is one lemma for each function of the builtin classes; `Primitive.alike_perform`
and `Found.alike_body` put them together.
-/

namespace Rite

variable {ρ : Record → Record → Prop} {π : Permit} {e e' : Engine} {K : Pairing}
  {receiver receiver' : Handle} {args args' : List Handle}

/-! ## Rows -/

namespace PairedRow

variable {items items' : Array Handle}

/-- Reading a row at a place, with `nil` beyond its end. -/
theorem getD (h : PairedRow K items.toList items'.toList) (place : Nat) :
    K (items.getD place Handle.nil) (items'.getD place Handle.nil) := by
  have hsize : items.size = items'.size := List.Forall₂.length_eq h
  unfold Array.getD
  by_cases hp : place < items.size
  · have hp' : place < items'.size := hsize ▸ hp
    rw [dif_pos hp, dif_pos hp']
    exact List.Forall₂.get h hp hp'
  · rw [dif_neg hp, dif_neg (hsize ▸ hp)]
    exact K.nil

theorem back (h : PairedRow K items.toList items'.toList) :
    K (items.back?.getD Handle.nil) (items'.back?.getD Handle.nil) := by
  have hsize : items.size = items'.size := List.Forall₂.length_eq h
  have hback : ∀ row : Array Handle,
      row.back?.getD Handle.nil = row.getD (row.size - 1) Handle.nil := by
    intro row
    rw [Array.back?, ← Array.getD_eq_getD_getElem?]
  rw [hback, hback, ← hsize]
  exact h.getD _

end PairedRow

/-! ## Integers, strings and symbols -/

namespace Integers

theorem alike_operands (hr : K receiver receiver') (ha : PairedRow K args args') :
    Alike ρ π e e' K (operands receiver args) (operands receiver' args') Equal := by
  refine .data (fun _ _ p => p.integer_eq hr) fun a => ?_
  refine .argument ha fun x x' hx => ?_
  exact .data (fun _ _ p => p.integer_eq hx) fun b => .pure rfl

theorem alike_arithmetic (f : Int64 → Int64 → Except Fault Int64) (hr : K receiver receiver')
    (ha : PairedRow K args args') :
    Alike ρ π e e' K (arithmetic f receiver args) (arithmetic f receiver' args') Pairing.rel := by
  refine .bind (alike_operands hr ha) fun L x _ _ hx => ?_
  cases hx
  exact .ofExcept fun value => .newInteger value

theorem alike_comparison (f : Int64 → Int64 → Bool) (hr : K receiver receiver')
    (ha : PairedRow K args args') :
    Alike ρ π e e' K (comparison f receiver args) (comparison f receiver' args') Pairing.rel := by
  refine .bind (alike_operands hr ha) fun L x _ _ hx => ?_
  cases hx
  exact .answer _

theorem alike_loose (hr : K receiver receiver') (ha : PairedRow K args args') :
    Alike ρ π e e' K (loose receiver args) (loose receiver' args') Equal := by
  refine .data (fun _ _ p => p.integer_eq hr) fun a => ?_
  refine .argument ha fun x x' hx => ?_
  exact .askData (fun _ _ p => (p.object hx).integer?_eq) fun b => .pure rfl

theorem alike_cmp (hr : K receiver receiver') (ha : PairedRow K args args') :
    Alike ρ π e e' K (cmp receiver args) (cmp receiver' args') Pairing.rel := by
  refine .bind (alike_loose hr ha) fun L x _ _ hx => ?_
  cases hx
  obtain ⟨a, _ | b⟩ := x
  · exact .nil
  · exact .newInteger _

theorem alike_perform (op : IntegerPrimitive) (hr : K receiver receiver')
    (ha : PairedRow K args args') :
    Alike ρ π e e' K (perform op receiver args) (perform op receiver' args') Pairing.rel := by
  cases op with
  | add => exact alike_arithmetic _ hr ha
  | sub => exact alike_arithmetic _ hr ha
  | mul => exact alike_arithmetic _ hr ha
  | div => exact alike_arithmetic _ hr ha
  | mod => exact alike_arithmetic _ hr ha
  | pow => exact alike_arithmetic _ hr ha
  | neg =>
    refine .data (fun _ _ p => p.integer_eq hr) fun a => ?_
    exact .ofExcept fun value => .newInteger value
  | eq =>
    refine .bind (alike_loose hr ha) fun L x _ _ hx => ?_
    cases hx
    exact .answer _
  | lt => exact alike_comparison (fun a b => a < b) hr ha
  | le => exact alike_comparison (fun a b => a ≤ b) hr ha
  | gt => exact alike_comparison (fun a b => b < a) hr ha
  | ge => exact alike_comparison (fun a b => b ≤ a) hr ha
  | cmp => exact alike_cmp hr ha
  | toS => exact .data (fun _ _ p => p.integer_eq hr) fun a => .newString _
  | isZero => exact .data (fun _ _ p => p.integer_eq hr) fun a => .answer _

end Integers

namespace Strings

theorem alike_concat (hr : K receiver receiver') (ha : PairedRow K args args') :
    Alike ρ π e e' K (concat receiver args) (concat receiver' args') Pairing.rel := by
  refine .argument ha fun x x' hx => ?_
  refine .data (fun _ _ p => p.string_eq hx) fun tail => ?_
  exact .data (fun _ _ p => p.string_eq hr) fun head => .newString _

theorem alike_times (hr : K receiver receiver') (ha : PairedRow K args args') :
    Alike ρ π e e' K (times receiver args) (times receiver' args') Pairing.rel := by
  refine .argument ha fun x x' hx => ?_
  refine .data (fun _ _ p => p.integer_eq hx) fun n => ?_
  split
  · exact .fail _
  · exact .data (fun _ _ p => p.string_eq hr) fun text => .reserve _ (.newString _)

theorem alike_eq (hr : K receiver receiver') (ha : PairedRow K args args') :
    Alike ρ π e e' K (eq receiver args) (eq receiver' args') Pairing.rel := by
  refine .argument ha fun x x' hx => ?_
  refine .data (fun _ _ p => p.string_eq hr) fun a => ?_
  exact .askData (fun _ _ p => (p.object hx).string?_eq) fun b => .answer _

theorem alike_comparison (f : String → String → Bool) (hr : K receiver receiver')
    (ha : PairedRow K args args') :
    Alike ρ π e e' K (comparison f receiver args) (comparison f receiver' args') Pairing.rel := by
  refine .data (fun _ _ p => p.string_eq hr) fun a => ?_
  refine .argument ha fun x x' hx => ?_
  exact .data (fun _ _ p => p.string_eq hx) fun b => .answer _

theorem alike_mapped (f : String → String) (hr : K receiver receiver') :
    Alike ρ π e e' K (mapped f receiver) (mapped f receiver') Pairing.rel :=
  .data (fun _ _ p => p.string_eq hr) fun _ => .newString _

theorem alike_perform (op : StringPrimitive) (hr : K receiver receiver')
    (ha : PairedRow K args args') :
    Alike ρ π e e' K (perform op receiver args) (perform op receiver' args') Pairing.rel := by
  cases op with
  | concat => exact alike_concat hr ha
  | times => exact alike_times hr ha
  | eq => exact alike_eq hr ha
  | lt => exact alike_comparison _ hr ha
  | le => exact alike_comparison _ hr ha
  | gt => exact alike_comparison _ hr ha
  | ge => exact alike_comparison _ hr ha
  | length => exact .data (fun _ _ p => p.string_eq hr) fun text => .newInteger _
  | isEmpty => exact .data (fun _ _ p => p.string_eq hr) fun text => .answer _
  | toS => exact .bind (.discardData fun _ _ p => p.string_eq hr) fun L _ _ hL _ => .pure (hL _ _ hr)
  | toSym => exact .data (fun _ _ p => p.string_eq hr) fun text => .newSymbol _
  | inspect => exact alike_mapped _ hr
  | upcase => exact alike_mapped _ hr
  | downcase => exact alike_mapped _ hr

end Strings

namespace Symbols

theorem alike_eq (hr : K receiver receiver') (ha : PairedRow K args args') :
    Alike ρ π e e' K (eq receiver args) (eq receiver' args') Pairing.rel := by
  refine .data (fun _ _ p => p.symbol_eq hr) fun a => ?_
  refine .argument ha fun x x' hx => ?_
  exact .askData (fun _ _ p => (p.object hx).symbol?_eq) fun b => .answer _

theorem alike_perform (op : SymbolPrimitive) (hr : K receiver receiver')
    (ha : PairedRow K args args') :
    Alike ρ π e e' K (perform op receiver args) (perform op receiver' args') Pairing.rel := by
  cases op with
  | toS => exact .data (fun _ _ p => p.symbol_eq hr) fun name => .newString _
  | toSym =>
    exact .bind (.discardData fun _ _ p => p.symbol_eq hr) fun L _ _ hL _ => .pure (hL _ _ hr)
  | inspect => exact .data (fun _ _ p => p.symbol_eq hr) fun name => .newString _
  | eq => exact alike_eq hr ha
  | length => exact .data (fun _ _ p => p.symbol_eq hr) fun name => .newInteger _

end Symbols

/-! ## Collections -/

namespace Arrays

theorem alike_fetch (hr : K receiver receiver') (ha : PairedRow K args args') :
    Alike ρ π e e' K (fetch receiver args) (fetch receiver' args') Pairing.rel := by
  refine .argument ha fun x x' hx => ?_
  refine .data (fun _ _ p => p.integer_eq hx) fun index => ?_
  refine .demand (fun _ _ p => p.array hr) fun items items' hitems => ?_
  have hsize : items.size = items'.size := List.Forall₂.length_eq hitems
  rw [hsize]
  cases Items.place? index items'.size with
  | some place => exact .pure (PairedRow.getD hitems place)
  | none => exact .nil

theorem alike_store (hr : K receiver receiver') (ha : PairedRow K args args') :
    Alike ρ π e e' K (store receiver args) (store receiver' args') Pairing.rel := by
  refine .argument ha fun x x' hx => ?_
  refine .data (fun _ _ p => p.integer_eq hx) fun index => ?_
  refine .argument ha fun value value' hvalue => ?_
  refine .data (fun _ _ p => p.arraySize_eq hr) fun size => ?_
  cases Items.place? index size with
  | some place =>
    refine .reserve _ ?_
    exact .bind (.effect (.putItem hr place hvalue)) fun L _ _ hL _ => .pure (hL _ _ hvalue)
  | none => exact .fail _

theorem alike_push (hr : K receiver receiver') (ha : PairedRow K args args') :
    Alike ρ π e e' K (push receiver args) (push receiver' args') Pairing.rel := by
  refine .bind (.discardData fun _ _ p => p.arraySize_eq hr) fun L _ _ hL _ => ?_
  refine .bind (.effect (.appendItems (hL _ _ hr) (ha.mono hL))) fun M _ _ hM _ => ?_
  exact .pure (hM _ _ (hL _ _ hr))

theorem alike_concat (hr : K receiver receiver') (ha : PairedRow K args args') :
    Alike ρ π e e' K (concat receiver args) (concat receiver' args') Pairing.rel := by
  refine .demand (fun _ _ p => p.array hr) fun items items' hitems => ?_
  refine .argument ha fun x x' hx => ?_
  refine .demand (fun _ _ p => p.array hx) fun others others' hothers => ?_
  exact .newArray (List.rel_append hitems hothers)

/-- The comparison asks the engine for one pair of items after the other. -/
theorem alike_eqItems {as as' bs bs' : List Handle} (has : PairedRow K as as')
    (hbs : PairedRow K bs bs') :
    Alike ρ π e e' K (eqItems e as bs) (eqItems e' as' bs') Pairing.rel := by
  -- A comparison may make objects, so the rest of both rows is looked at under a larger pairing.
  suffices hall : ∀ L bs bs', K ≤ L → PairedRow L bs bs' →
      Alike ρ π e e' L (eqItems e as bs) (eqItems e' as' bs') Pairing.rel from
    hall K bs bs' le_rfl hbs
  induction has with
  | nil => exact fun L bs bs' _ _ => .answer true
  | cons hx _ ih =>
    intro L bs bs' hL hbs
    cases hbs with
    | nil => exact .answer true
    | cons hy hbs =>
      refine .bind (.send (hL _ _ hx) "==" (.cons hy .nil)) fun M z z' hM hz => ?_
      rw [Pairing.truthy_eq hz]
      split
      · exact ih M _ _ (hL.trans hM) (PairedRow.mono hM hbs)
      · exact .answer false

theorem alike_eq (hr : K receiver receiver') (ha : PairedRow K args args') :
    Alike ρ π e e' K (eq e receiver args) (eq e' receiver' args') Pairing.rel := by
  refine .demand (fun _ _ p => p.array hr) fun items items' hitems => ?_
  refine .argument ha fun x x' hx => ?_
  refine .ask (fun _ _ p => (p.object hx).array?) fun y y' hy => ?_
  cases hy with
  | none => exact .answer false
  | @some others others' hothers =>
    have hsize : items.size = items'.size := List.Forall₂.length_eq hitems
    have hsize' : others.size = others'.size := List.Forall₂.length_eq hothers
    dsimp only
    rw [hsize, hsize']
    split
    · exact .answer false
    · exact alike_eqItems hitems hothers

theorem alike_inspect (hr : K receiver receiver') :
    Alike ρ π e e' K (inspect e receiver) (inspect e' receiver') Pairing.rel := by
  refine .demand (fun _ _ p => p.array hr) fun items items' hitems => ?_
  refine .inspectGuarded hr _ (.bind (.inspectAll hitems) fun L parts _ _ hparts => ?_)
  cases hparts
  exact .pure rfl

theorem alike_perform (op : ArrayPrimitive) (hr : K receiver receiver')
    (ha : PairedRow K args args') :
    Alike ρ π e e' K (perform e op receiver args) (perform e' op receiver' args') Pairing.rel := by
  cases op with
  | «at» => exact alike_fetch hr ha
  | atPut => exact alike_store hr ha
  | length =>
    refine .demand (fun _ _ p => p.array hr) fun items items' hitems => ?_
    have hsize : items.size = items'.size := List.Forall₂.length_eq hitems
    rw [hsize]
    exact .newInteger _
  | push => exact alike_push hr ha
  | first =>
    exact .demand (fun _ _ p => p.array hr) fun items items' hitems =>
      .pure (PairedRow.getD hitems 0)
  | last =>
    exact .demand (fun _ _ p => p.array hr) fun items items' hitems =>
      .pure (PairedRow.back hitems)
  | concat => exact alike_concat hr ha
  | eq => exact alike_eq hr ha
  | inspect => exact alike_inspect hr
  | isEmpty =>
    refine .demand (fun _ _ p => p.array hr) fun items items' hitems => ?_
    have hsize : items.size = items'.size := List.Forall₂.length_eq hitems
    rw [Array.isEmpty, hsize]
    exact .answer _

end Arrays

namespace Hashes

theorem alike_fetch (hr : K receiver receiver') (ha : PairedRow K args args') :
    Alike ρ π e e' K (fetch receiver args) (fetch receiver' args') Pairing.rel := by
  refine .bind (.discardDemand fun _ _ p => p.hash hr) fun L _ _ hL _ => ?_
  refine .argument (ha.mono hL) fun x x' hx => ?_
  exact .asked fun _ _ p => Machine.Paired.getD_nil (p.hashGet? (hL _ _ hr) hx)

theorem alike_store (hr : K receiver receiver') (ha : PairedRow K args args') :
    Alike ρ π e e' K (store receiver args) (store receiver' args') Pairing.rel := by
  refine .bind (.discardDemand fun _ _ p => p.hash hr) fun L _ _ hL _ => ?_
  refine .argument (ha.mono hL) fun value value' hvalue => ?_
  refine .argument (ha.mono hL) fun key key' hkey => ?_
  refine .bind (.effect (.hashSet (hL _ _ hr) hkey hvalue)) fun M _ _ hM _ => ?_
  exact .pure (hM _ _ hvalue)

theorem alike_hasKey (hr : K receiver receiver') (ha : PairedRow K args args') :
    Alike ρ π e e' K (hasKey receiver args) (hasKey receiver' args') Pairing.rel := by
  refine .bind (.discardDemand fun _ _ p => p.hash hr) fun L _ _ hL _ => ?_
  refine .argument (ha.mono hL) fun x x' hx => ?_
  refine .askData (fun m m' p => ?_) fun found => .answer found
  have hfound : Option.Rel L.rel (m.heap.hashGet? receiver x) (m'.heap.hashGet? receiver' x') :=
    p.hashGet? (hL _ _ hr) hx
  obtain ⟨hy, hy'⟩ | ⟨_, _, hy, hy', _⟩ := rel_cases hfound <;> rw [hy, hy']
  rfl

theorem alike_inspectPair {pair pair' : Handle × Handle} (h : PairedPair K pair pair') :
    Alike ρ π e e' K (inspectPair e pair) (inspectPair e' pair') Equal := by
  refine .bind (.inspect h.1) fun L key _ hL hkey => ?_
  refine .bind (.inspect (hL _ _ h.2)) fun M value _ _ hvalue => ?_
  cases hkey
  cases hvalue
  exact .pure rfl

theorem alike_inspect (hr : K receiver receiver') :
    Alike ρ π e e' K (inspect e receiver) (inspect e' receiver') Pairing.rel := by
  refine .demand (fun _ _ p => p.hash hr) fun pairs pairs' hpairs => .inspectGuarded hr _ ?_
  refine .bind (.mapM hpairs (fun hLM hp => hp.mono hLM) fun L _ _ _ => alike_inspectPair) ?_
  intro L parts _ _ hparts
  cases hparts
  exact .pure rfl

theorem alike_perform (op : HashPrimitive) (hr : K receiver receiver')
    (ha : PairedRow K args args') :
    Alike ρ π e e' K (perform e op receiver args) (perform e' op receiver' args') Pairing.rel := by
  cases op with
  | «at» => exact alike_fetch hr ha
  | atPut => exact alike_store hr ha
  | length =>
    refine .demand (fun _ _ p => p.hash hr) fun pairs pairs' hpairs => ?_
    rw [hpairs.length_eq]
    exact .newInteger _
  | hasKey => exact alike_hasKey hr ha
  | keys =>
    refine .demand (fun _ _ p => p.hash hr) fun pairs pairs' hpairs => .newArray ?_
    rw [PairedRow, List.forall₂_map_left_iff, List.forall₂_map_right_iff]
    exact hpairs.imp fun _ _ hp => hp.1
  | values =>
    refine .demand (fun _ _ p => p.hash hr) fun pairs pairs' hpairs => .newArray ?_
    rw [PairedRow, List.forall₂_map_left_iff, List.forall₂_map_right_iff]
    exact hpairs.imp fun _ _ hp => hp.2
  | isEmpty =>
    refine .demand (fun _ _ p => p.hash hr) fun pairs pairs' hpairs => ?_
    cases hpairs <;> exact .answer _
  | inspect => exact alike_inspect hr

end Hashes

namespace Ranges

/-- The new integers of a spelled-out range are paired as they are made. -/
theorem alike_countUp (first : Int) (n : Nat) {made made' : Array Handle}
    (hmade : PairedRow K made.toList made'.toList) :
    Alike ρ π e e' K (countUp first n made) (countUp first n made')
      (fun L items items' => PairedRow L items.toList items'.toList) := by
  induction n generalizing K first made made' with
  | zero => exact .pure hmade
  | succ n ih =>
    refine .bind (.newInteger _) fun L h h' hL hh => ih (first + 1) ?_
    rw [Array.toList_push, Array.toList_push]
    exact List.rel_append (hmade.mono hL) (.cons hh .nil)

theorem alike_toA (hr : K receiver receiver') :
    Alike ρ π e e' K (toA receiver) (toA receiver') Pairing.rel := by
  refine .demand (fun _ _ p => p.range hr) fun bounds bounds' hbounds => ?_
  obtain ⟨first, last, exclusive⟩ := bounds
  obtain ⟨first', last', exclusive'⟩ := bounds'
  obtain ⟨hfirst, hlast, rfl⟩ := hbounds
  refine .data (fun _ _ p => p.integer_eq hfirst) fun a => ?_
  refine .data (fun _ _ p => p.integer_eq hlast) fun b => ?_
  refine .reserve _ ?_
  exact .bind (alike_countUp _ _ .nil) fun L items items' _ hitems => .newArray hitems

theorem alike_rendered {render render' : Handle → Action String} (hr : K receiver receiver')
    (hrender : ∀ L h h', L.rel h h' → Alike ρ π e e' L (render h) (render' h') Equal) :
    Alike ρ π e e' K (rendered render receiver) (rendered render' receiver') Pairing.rel := by
  refine .demand (fun _ _ p => p.range hr) fun bounds bounds' hbounds => ?_
  obtain ⟨first, last, exclusive⟩ := bounds
  obtain ⟨first', last', exclusive'⟩ := bounds'
  obtain ⟨hfirst, hlast, rfl⟩ := hbounds
  refine .bind (hrender K _ _ hfirst) fun L a _ hL ha => ?_
  refine .bind (hrender L _ _ (hL _ _ hlast)) fun M b _ _ hb => ?_
  cases ha
  cases hb
  exact .newString _

theorem alike_perform (op : RangePrimitive) (hr : K receiver receiver') :
    Alike ρ π e e' K (perform e op receiver args) (perform e' op receiver' args') Pairing.rel := by
  cases op with
  | first => exact .demand (fun _ _ p => p.range hr) fun _ _ hbounds => .pure hbounds.1
  | last => exact .demand (fun _ _ p => p.range hr) fun _ _ hbounds => .pure hbounds.2.1
  | excludesEnd =>
    refine .demand (fun _ _ p => p.range hr) fun _ _ hbounds => ?_
    rw [hbounds.2.2]
    exact .answer _
  | toA => exact alike_toA hr
  | inspect => exact alike_rendered hr fun _ _ _ => .inspect
  | toS => exact alike_rendered hr fun _ _ _ => .toText

end Ranges

/-! ## Every object -/

namespace Objects

theorem alike_linesWithin (hgive : π.giveUp) {rounds rounds' : Nat} (hrounds : rounds ≤ rounds')
    {path path' : List Handle} (hpath : PairedRow K path path') (hr : K receiver receiver') :
    Alike ρ π e e' K (linesWithin e rounds path receiver) (linesWithin e' rounds' path' receiver')
      Equal := by
  induction rounds generalizing K rounds' path path' receiver receiver' with
  | zero => exact .exhausted hgive _
  | succ rounds ih =>
    obtain ⟨rounds', rfl⟩ : ∃ n, rounds' = n + 1 := ⟨rounds' - 1, by omega⟩
    refine .ask (fun _ _ p => (p.object hr).array?) fun x x' hx => ?_
    cases hx with
    | none =>
      refine .bind (.toText hr) fun L text _ _ htext => ?_
      cases htext
      exact .pure rfl
    | some hitems =>
      dsimp only
      rw [Pairing.contains_eq hr hpath]
      split
      · exact .pure rfl
      · refine .foldlM (R := Pairing.rel) hitems (fun hLM hx => hLM _ _ hx) ?_ ""
        intro L text item item' hL hitem
        have hpath : PairedRow L (receiver :: path) (receiver' :: path') :=
          .cons (hL _ _ hr) (hpath.mono hL)
        refine .bind (ih (by omega) hpath hitem) fun M more _ _ hmore => ?_
        cases hmore
        exact .pure rfl

theorem alike_lines (hgive : π.giveUp) (hfuel : e.fuel ≤ e'.fuel) (hr : K receiver receiver') :
    Alike ρ π e e' K (lines e receiver) (lines e' receiver') Equal := by
  refine .bind (alike_linesWithin hgive hfuel .nil hr) fun L text _ _ htext => ?_
  cases htext
  exact .pure rfl

theorem alike_puts (hgive : π.giveUp) (hfuel : e.fuel ≤ e'.fuel) (ha : PairedRow K args args') :
    Alike ρ π e e' K (puts e args) (puts e' args') Pairing.rel := by
  have hempty : args.isEmpty = args'.isEmpty := by cases ha <;> rfl
  refine .bind (.foldlM (R := Pairing.rel) ha (fun hLM hx => hLM _ _ hx) ?_ "") ?_
  · intro L text h h' hL hh
    refine .bind (alike_lines hgive hfuel hh) fun M more _ _ hmore => ?_
    cases hmore
    exact .pure rfl
  · intro L text _ hL htext
    cases htext
    rw [hempty]
    exact .bind (.effect (.writeOut _)) fun M _ _ _ _ => .nil

/-- One write for each argument. -/
theorem alike_each {f f' : Handle → Action PUnit} (ha : PairedRow K args args')
    (hf : ∀ L h h', L.rel h h' → Alike ρ π e e' L (f h) (f' h') Equal) :
    Alike ρ π e e' K (args.forM f) (args'.forM f') Equal :=
  .forM (R := Pairing.rel) ha (fun hLM hx => hLM _ _ hx) fun L h h' _ => hf L h h'

theorem alike_print (ha : PairedRow K args args') :
    Alike ρ π e e' K (print e args) (print e' args') Pairing.rel := by
  refine .bind (alike_each ha fun L h h' hh => ?_) fun L _ _ _ _ => .nil
  exact .bind (.toText hh) fun M text _ _ htext => htext ▸ .effect (.writeOut text)

theorem alike_p (ha : PairedRow K args args') :
    Alike ρ π e e' K (p e args) (p e' args') Pairing.rel := by
  refine .bind (alike_each ha fun L h h' hh => ?_) fun L _ _ hL _ => ?_
  · exact .bind (.inspect hh) fun M text _ _ htext => htext ▸ .effect (.writeOut _)
  · cases ha.mono hL with
    | nil => exact .nil
    | cons hx hrest =>
      cases hrest with
      | nil => exact .pure hx
      | cons hy hrest => exact .newArray (.cons hx (.cons hy hrest))

theorem alike_warn (ha : PairedRow K args args') :
    Alike ρ π e e' K (warn e args) (warn e' args') Pairing.rel := by
  refine .bind (alike_each ha fun L h h' hh => ?_) fun L _ _ _ _ => .nil
  exact .bind (.toText hh) fun M text _ _ htext => htext ▸ .effect (.writeErr _)

theorem alike_toS (hr : K receiver receiver') :
    Alike ρ π e e' K (toS receiver) (toS receiver') Pairing.rel :=
  .askData (fun _ _ p => p.plainText_eq hr) fun text => .newString text

theorem alike_inspectIvar {ivar ivar' : String × Handle} (hname : ivar.1 = ivar'.1)
    (hvalue : K ivar.2 ivar'.2) :
    Alike ρ π e e' K (inspectIvar e ivar) (inspectIvar e' ivar') Equal := by
  refine .bind (.inspect hvalue) fun L text _ _ htext => ?_
  cases htext
  rw [hname]
  exact .pure rfl

theorem alike_inspect (hr : K receiver receiver') :
    Alike ρ π e e' K (inspect e receiver) (inspect e' receiver') Pairing.rel := by
  refine .ask (fun _ _ p => (p.object hr).ivars) fun ivars ivars' hivars => ?_
  refine .askData (fun _ _ p => p.isClass_eq hr) fun isClass => ?_
  rw [hivars.isEmpty_eq]
  split
  · exact alike_toS hr
  · refine .bind (.mapM (R := fun L x x' => x.1 = x'.1 ∧ L.rel x.2 x'.2) hivars.sorted ?_ ?_) ?_
    · exact fun hLM hx => ⟨hx.1, hLM _ _ hx.2⟩
    · exact fun L x x' _ hx => alike_inspectIvar hx.1 hx.2
    · intro L parts _ hL hparts
      cases hparts
      have hr : L receiver receiver' := hL _ _ hr
      exact .askData (fun _ _ p => p.className_eq (p.classOf hr)) fun name => .newString _

theorem alike_same (hr : K receiver receiver') (ha : PairedRow K args args') :
    Alike ρ π e e' K (same receiver args) (same receiver' args') Pairing.rel := by
  refine .argument ha fun x x' hx => ?_
  -- Identity is the one question about handles themselves; a pairing answers it alike.
  simp only [K.unique hr hx]
  exact .answer _

theorem alike_differs (hr : K receiver receiver') (ha : PairedRow K args args') :
    Alike ρ π e e' K (differs e receiver args) (differs e' receiver' args') Pairing.rel := by
  refine .argument ha fun x x' hx => ?_
  refine .bind (.send hr "==" (.cons hx .nil)) fun L y y' _ hy => ?_
  rw [Pairing.truthy_eq hy]
  exact .answer _

theorem alike_respondTo (hreveal : π.revealLimit) (hr : K receiver receiver')
    (ha : PairedRow K args args') :
    Alike ρ π e e' K (respondTo receiver args) (respondTo receiver' args') Pairing.rel := by
  refine .argument ha fun x x' hx => ?_
  refine .data (fun _ _ p => p.name_eq hx) fun name => ?_
  refine .question (Q := Eq) (q := fun m => .ok (m.respondsTo receiver name))
    (fun _ _ p => .ok (p.respondsTo_eq hr name)) (.inl hreveal) fun b _ hb => ?_
  rw [← hb]
  exact .answer b

theorem alike_ivarGet (hr : K receiver receiver') (ha : PairedRow K args args') :
    Alike ρ π e e' K (ivarGet receiver args) (ivarGet receiver' args') Pairing.rel := by
  refine .argument ha fun x x' hx => ?_
  refine .data (fun _ _ p => p.name_eq hx) fun name => ?_
  exact .asked fun _ _ p => p.ivar hr name

theorem alike_ivarSet (hr : K receiver receiver') (ha : PairedRow K args args') :
    Alike ρ π e e' K (ivarSet receiver args) (ivarSet receiver' args') Pairing.rel := by
  refine .argument ha fun x x' hx => ?_
  refine .data (fun _ _ p => p.name_eq hx) fun name => ?_
  refine .argument ha fun value value' hvalue => ?_
  exact .bind (.effect (.setIvar hr name hvalue)) fun L _ _ hL _ => .pure (hL _ _ hvalue)

theorem alike_perform (hfuel : e.fuel ≤ e'.fuel) (op : ObjectPrimitive)
    (hgive : op = .puts → π.giveUp) (hreveal : op = .respondTo → π.revealLimit)
    (hr : K receiver receiver') (ha : PairedRow K args args') :
    Alike ρ π e e' K (perform e op receiver args) (perform e' op receiver' args') Pairing.rel := by
  cases op with
  | puts => exact alike_puts (hgive rfl) hfuel ha
  | print => exact alike_print ha
  | p => exact alike_p ha
  | warn => exact alike_warn ha
  | inspect => exact alike_inspect hr
  | toS => exact alike_toS hr
  | classOf => exact .asked fun _ _ p => p.classOf hr
  | same => exact alike_same hr ha
  | differs => exact alike_differs hr ha
  | negate =>
    change Alike ρ π e e' K (Action.answer !receiver.truthy) (Action.answer !receiver'.truthy) _
    rw [Pairing.truthy_eq hr]
    exact .answer _
  | respondTo => exact alike_respondTo (hreveal rfl) hr ha
  | ivarGet => exact alike_ivarGet hr ha
  | ivarSet => exact alike_ivarSet hr ha
  | setUp => exact .nil

end Objects

/-! ## Classes -/

namespace Classes

theorem alike_new (hr : K receiver receiver') (ha : PairedRow K args args') :
    Alike ρ π e e' K (new e receiver args) (new e' receiver' args') Pairing.rel := by
  rw [new_eq, new_eq]
  refine .bind (.effect (.instantiate hr)) fun L h h' hL hh => ?_
  refine .bind (.discard (.send hh "initialize" (ha.mono hL))) fun M _ _ hM _ => ?_
  exact .pure (hM _ _ hh)

theorem alike_defineAccessors (reader writer : Bool) (hr : K receiver receiver')
    (ha : PairedRow K args args') :
    Alike ρ π e e' K (defineAccessors receiver reader writer args)
      (defineAccessors receiver' reader writer args') Pairing.rel := by
  suffices hall : ∀ L, K ≤ L → Alike ρ π e e' L (defineAccessors receiver reader writer args)
      (defineAccessors receiver' reader writer args') Pairing.rel from hall K le_rfl
  induction ha with
  | nil => exact fun L _ => .nil
  | cons hx _ ih =>
    intro L hL
    refine .data (fun _ _ p => p.name_eq (hL _ _ hx)) fun name => ?_
    have hr : L receiver receiver' := hL _ _ hr
    refine .optional reader (.effect (.defineMethod hr _ (.attrReader _) (.inr trivial)))
      fun M hM => ?_
    refine .optional writer (.effect (.defineMethod (hM _ _ hr) _ (.attrWriter _) (.inr trivial)))
      fun N hN => ?_
    exact ih N (hL.trans (hM.trans hN))

theorem alike_perform (op : ClassPrimitive) (hr : K receiver receiver')
    (ha : PairedRow K args args') :
    Alike ρ π e e' K (perform e op receiver args) (perform e' op receiver' args') Pairing.rel := by
  cases op with
  | new => exact alike_new hr ha
  | superclass => exact .asked fun _ _ p => Machine.Paired.getD_nil (p.superclassOf? hr)
  | name =>
    refine .demand (fun _ _ p => p.expect (fun _ _ => Object.Paired.classInfo?) hr _) ?_
    intro info info' hinfo
    rw [hinfo.name]
    exact .newString _
  | attrReader => exact alike_defineAccessors true false hr ha
  | attrWriter => exact alike_defineAccessors false true hr ha
  | attrAccessor => exact alike_defineAccessors true true hr ha

end Classes

/-! ## All of them -/

/-- Only `puts` has a loop that can give up, and only `respond_to?` takes a look-up that was cut
short for an answer. -/
theorem Primitive.alike_perform (hfuel : e.fuel ≤ e'.fuel) (primitive : Primitive)
    (hgive : primitive = .ofObject .puts → π.giveUp)
    (hreveal : primitive = .ofObject .respondTo → π.revealLimit) (hr : K receiver receiver')
    (ha : PairedRow K args args') :
    Alike ρ π e e' K (primitive.perform e receiver args) (primitive.perform e' receiver' args')
      Pairing.rel := by
  cases primitive with
  | text s => exact .newString s
  | answer b => exact .answer b
  | argumentTruth =>
    refine .argument ha fun x x' hx => ?_
    rw [Pairing.truthy_eq hx]
    exact .answer _
  | ofObject op =>
    exact Objects.alike_perform hfuel op (fun hop => hgive (congrArg _ hop))
      (fun hop => hreveal (congrArg _ hop)) hr ha
  | ofClass op => exact Classes.alike_perform op hr ha
  | ofInteger op => exact Integers.alike_perform op hr ha
  | ofString op => exact Strings.alike_perform op hr ha
  | ofSymbol op => exact Symbols.alike_perform op hr ha
  | ofArray op => exact Arrays.alike_perform op hr ha
  | ofHash op => exact Hashes.alike_perform op hr ha
  | ofRange op => exact Ranges.alike_perform op hr

/-- The builtin method that tells whether an object has a method. -/
def Method.IsRespondTo : Method → Prop
  | .native method => method.primitive = .ofObject .respondTo
  | _ => False

instance : (method : Method) → Decidable method.IsRespondTo
  | .native method => inferInstanceAs (Decidable (method.primitive = .ofObject .respondTo))
  | .bytecode _ | .attrReader _ | .attrWriter _ => inferInstanceAs (Decidable False)

/-- **The body of a call is alike on paired data.** -/
theorem Found.alike_body (hgive : π.giveUp) {found found' : Found}
    (hreveal : found.method.IsRespondTo → π.revealLimit) (hfuel : e.fuel ≤ e'.fuel)
    (name : String) (hfound : Found.Paired ρ K found found') (hr : K receiver receiver')
    (ha : PairedRow K args args') :
    Alike ρ π e e' K (found.body e receiver name args) (found'.body e' receiver' name args')
      Pairing.rel := by
  obtain ⟨owner, method⟩ := found
  obtain ⟨owner', method'⟩ := found'
  obtain ⟨howner, hmethod⟩ := hfound
  have hlength : args.length = args'.length := List.Forall₂.length_eq ha
  cases hmethod with
  | native method =>
    unfold Found.body
    dsimp only
    rw [hlength]
    refine .bind (.checkArity _ _) fun L _ _ hL _ => ?_
    exact Primitive.alike_perform hfuel _ (fun _ => hgive) hreveal (hL _ _ hr) (ha.mono hL)
  | bytecode hbody => exact .evaluate hbody ⟨hr, howner, .some ⟨howner, rfl⟩⟩ ha
  | attrReader ivar =>
    unfold Found.body
    dsimp only
    rw [hlength]
    refine .bind (.checkArity _ _) fun L _ _ hL _ => ?_
    exact .asked fun _ _ p => p.ivar (hL _ _ hr) ivar
  | attrWriter ivar =>
    unfold Found.body
    dsimp only
    rw [hlength]
    refine .bind (.checkArity _ _) fun L _ _ hL _ => .argument (ha.mono hL) fun x x' hx => ?_
    exact .bind (.effect (.setIvar (hL _ _ hr) ivar hx)) fun M _ _ hM _ => .pure (hM _ _ hx)

end Rite
