import ModuleLint.Grammar.Literal
import ModuleLint.Proofs.Grammar.PatternProgress

/-!
Progress of functions, accesses and literals.
-/

namespace ModuleLint.Grammar

open Reader

variable {n : Nat} {readers : Readers} (hr : TakeBelow n readers)
include hr

/-! ### Functions -/

lemma block_takes : Takes (n + 1) (block readers) := by
  unfold block
  refine .here fun start => .first (expect_takes rfl) fun _ => ?_
  refine (statements_goes (hr .statement)).bind fun body => ?_
  exact .bind (expect_goes rfl) fun _ => node_goes

lemma parameters_takes : Takes (n + 1) (parameters readers) := by
  unfold parameters
  refine .here fun start => .first (expect_takes rfl) fun _ => ?_
  refine (list_goes (listElement_takes hr)).bind fun items => ?_
  exact .bind (expect_goes rfl) fun _ => node_goes

lemma functionRest_takes {start : Span} {flags : NodeFlags} {name : Node} :
    Takes (n + 1) (functionRest readers start flags name) := by
  unfold functionRest
  refine (parameters_takes hr).first fun params => ?_
  have body : Goes n (block readers) := (block_takes hr).goes.down
  exact .bind body.withIn fun body => extended_goes

lemma method_takes {start : Span} {flags : NodeFlags} :
    Takes (n + 1) (method readers start flags) :=
  functionRest_takes hr

omit hr in
lemma functionName_goes {isExpression : Bool} : Goes n (functionName isExpression) := by
  unfold functionName
  refine .isAt rfl (advance_goes.from.bind fun t => goes_pure) (.either ?_ moves_failHere)
  exact .here fun span => goes_pure

/-- A function takes a token with its parameters, wherever it starts. -/
lemma function_takes {isExpression : Bool} {flags : NodeFlags} :
    Takes (n + 1) (function readers isExpression flags) := by
  unfold function
  refine advance_goes.bind fun keyword => .bind (accept_goes rfl) fun _ => ?_
  exact functionName_goes.bind fun name => functionRest_takes hr

lemma arrowParameters_takes : Takes (n + 1) (arrowParameters readers) := by
  unfold arrowParameters
  exact .isAt rfl (advance_takes.then fun t => goes_pure) (parameters_takes hr)

lemma arrowBody_goes : Goes n (arrowBody readers) := by
  unfold arrowBody
  have body : Goes n (block readers) := (block_takes hr).goes.down
  exact .isAt rfl body.withIn.from (hr .assignment).goes

lemma arrowFunction_takes {isAsync : Bool} : Takes (n + 1) (arrowFunction readers isAsync) := by
  unfold arrowFunction
  refine .here fun start => (arrowParameters_takes hr).first fun params => ?_
  refine .bind (expect_goes rfl) fun _ => ?_
  exact (arrowBody_goes hr).bind fun body => extended_goes

/-! ### Accesses -/

lemma spread_takes : TakesInside (n + 1) (spread readers) := by
  unfold spread
  exact advance_takes.first fun dots => (hr .assignment).goes.bind fun value => node_goes

lemma spreadable_takes : Takes n (spreadable readers) := by
  unfold spreadable
  exact .isAt rfl ((spread_takes hr).down) (hr .assignment)

lemma arguments_takes : TakesInside (n + 1) (arguments readers) := by
  unfold arguments
  refine advance_takes.first fun _ => .bind (list_goes (spreadable_takes hr)).withIn fun items => ?_
  exact .bind (expect_goes rfl) fun _ => goes_pure

omit hr in
lemma property_goes {object : Node} : Goes n (property object) := by
  unfold property
  refine .here fun t => .either ?_ moves_failHere
  exact advance_goes.bind fun t => extended_goes

lemma index_goes {object : Node} : Goes n (index readers object) := by
  unfold index
  refine .bind (hr .expression).goes.withIn fun i => ?_
  exact .bind (expect_goes rfl) fun _ => node_goes

lemma access_grows {allowCall : Bool} (operand : Node) :
    Grows (n + 1) (access readers allowCall operand) := by
  unfold access
  refine .acceptFirst rfl (property_goes.bind fun m => goes_pure) ?_
  refine .acceptFirst rfl ((index_goes hr).bind fun m => goes_pure) ?_
  refine .isAtIf rfl ?_ (moves_stay nofun)
  exact (arguments_takes hr).first fun args => node_goes.bind fun m => goes_pure

lemma accesses_goes {allowCall : Bool} (operand : Node) :
    Goes (n + 1) (accesses readers allowCall operand) :=
  Grows.growing (access_grows hr) operand

/-! ### Literals -/

lemma arrayLiteral_takes : TakesInside (n + 1) (arrayLiteral readers) := by
  unfold arrayLiteral
  refine advance_takes.first fun bracket => ?_
  refine .bind (Goes.allowingIn (list_goes (spreadable_takes hr))) fun elements => ?_
  exact .bind (expect_goes rfl) fun _ => node_goes

omit hr in
lemma modifiers_goes {flags : NodeFlags} {applies : Token → Bool} :
    Goes n (modifiers flags applies) := by
  unfold modifiers
  refine acceptWord_goes.bind fun isAsync => acceptWord_goes.bind fun isGetter => ?_
  exact acceptWord_goes.bind fun isSetter => goes_pure

lemma computedProperty_goes {start : Span} {flags : NodeFlags} :
    Goes n (computedProperty readers start flags) := by
  unfold computedProperty
  refine (computedKey_takes hr).goes.bind fun key => .isAt rfl ?_ ?_
  · have value : Goes n (method readers start flags) := (method_takes hr).goes.down
    exact value.from.bind fun value => extended_goes
  · refine .bind (expect_goes rfl) fun _ => ?_
    exact (hr .assignment).goes.bind fun value => extended_goes

lemma memberFunction_goes {start : Span} {flags : NodeFlags} {key : Token} :
    Goes n (memberFunction readers start flags key) := by
  unfold memberFunction
  have value : Goes n (method readers start flags) := (method_takes hr).goes.down
  exact value.bind fun value => extended_goes

lemma keyedValue_goes {start : Span} {key : Token} : Goes n (keyedValue readers start key) := by
  unfold keyedValue
  refine .accept rfl ((hr .assignment).goes.bind fun value => goes_pure) ?_
  refine .either moves_fail (.accept rfl ?_ goes_pure)
  exact (hr .assignment).goes.bind fun fallback => node_goes.bind fun value => goes_pure

lemma keyedProperty_takes : Takes n (keyedProperty readers) := by
  unfold keyedProperty
  refine .here fun start => modifiers_goes.bind fun flags => ?_
  refine .bind (accept_goes rfl) fun isGenerator => ?_
  refine .accept rfl (computedProperty_goes hr) (propertyKey_takes.then fun key => ?_)
  refine .here fun isMethod => .either (memberFunction_goes hr) ?_
  exact (keyedValue_goes hr).bind fun value => extended_goes

lemma objectProperty_takes : Takes n (objectProperty readers) := by
  unfold objectProperty
  exact .isAt rfl ((spread_takes hr).down) (keyedProperty_takes hr)

lemma objectLiteral_takes : TakesInside (n + 1) (objectLiteral readers) := by
  unfold objectLiteral
  refine advance_takes.first fun brace => ?_
  refine .bind (Goes.allowingIn (list_goes (objectProperty_takes hr))) fun properties => ?_
  exact .bind (expect_goes rfl) fun _ => node_goes

end ModuleLint.Grammar
