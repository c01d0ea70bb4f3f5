import Tabletop.Attribute.Alias
import Tabletop.Attribute.Apply
import Tabletop.Attribute.Directive
import Tabletop.Attribute.Pair
import Tabletop.Attribute.Reader
import Tabletop.Card.Store
import Tabletop.Check.Cost
import Tabletop.Check.Level
import Tabletop.Check.Reference
import Tabletop.Check.Request
import Tabletop.Check.Run
import Tabletop.Check.Validation
import Tabletop.Command
import Tabletop.Dice.Eval
import Tabletop.Dice.Fault
import Tabletop.Dice.Parser
import Tabletop.Dice.Source
import Tabletop.Dice.Supply
import Tabletop.Dice.Token
import Tabletop.Dice.Tree
import Tabletop.Effect
import Tabletop.Error
import Tabletop.Game
import Tabletop.Initiative.Channel
import Tabletop.Initiative.Order
import Tabletop.Initiative.Roll
import Tabletop.Initiative.Snapshot
import Tabletop.InsertionMap
import Tabletop.Json.Reader
import Tabletop.Json.Token
import Tabletop.Json.Value
import Tabletop.Json.Writer
import Tabletop.Number.Binary64
import Tabletop.Number.Shortest
import Tabletop.Pool.Roll
import Tabletop.Pool.Spec
import Tabletop.Pool.Substitution
import Tabletop.Proofs.Attribute.Amounts
import Tabletop.Proofs.Attribute.Application
import Tabletop.Proofs.Attribute.Canonical
import Tabletop.Proofs.Attribute.Caseless
import Tabletop.Proofs.Attribute.Composition
import Tabletop.Proofs.Attribute.Directive
import Tabletop.Proofs.Attribute.Instruction
import Tabletop.Proofs.Attribute.Locality
import Tabletop.Proofs.Attribute.Setting
import Tabletop.Proofs.Attribute.Sign
import Tabletop.Proofs.Card.Names
import Tabletop.Proofs.Card.Readable
import Tabletop.Proofs.Card.Rows
import Tabletop.Proofs.Card.Session
import Tabletop.Proofs.Card.Sheet
import Tabletop.Proofs.Card.Sign
import Tabletop.Proofs.Card.Table
import Tabletop.Proofs.Card.Writes
import Tabletop.Proofs.Check.Commitment
import Tabletop.Proofs.Check.Fumble
import Tabletop.Proofs.Check.Growth
import Tabletop.Proofs.Check.Loss
import Tabletop.Proofs.Check.Monotone
import Tabletop.Proofs.Check.Sign
import Tabletop.Proofs.Dice.Exact
import Tabletop.Proofs.Dice.Expansion
import Tabletop.Proofs.Dice.Extremes
import Tabletop.Proofs.Dice.Grammar
import Tabletop.Proofs.Dice.Least
import Tabletop.Proofs.Dice.Monotone
import Tabletop.Proofs.Dice.Numeral
import Tabletop.Proofs.Dice.Parts
import Tabletop.Proofs.Dice.Roll
import Tabletop.Proofs.Dice.Shape
import Tabletop.Proofs.Dice.Spelling
import Tabletop.Proofs.Dice.Terms
import Tabletop.Proofs.Dice.Unsigned
import Tabletop.Proofs.Dice.Value
import Tabletop.Proofs.Initiative.Alike
import Tabletop.Proofs.Initiative.Arrivals
import Tabletop.Proofs.Initiative.Channels
import Tabletop.Proofs.Initiative.Foreign
import Tabletop.Proofs.Initiative.Persistence
import Tabletop.Proofs.Initiative.Ranked
import Tabletop.Proofs.Initiative.Refinement
import Tabletop.Proofs.Initiative.Removal
import Tabletop.Proofs.Initiative.Rounds
import Tabletop.Proofs.Initiative.Settled
import Tabletop.Proofs.Initiative.Snapshot
import Tabletop.Proofs.Initiative.Table
import Tabletop.Proofs.Json.Lexing
import Tabletop.Proofs.Json.RoundTrip
import Tabletop.Proofs.Json.Short
import Tabletop.Proofs.Number.Quotient
import Tabletop.Proofs.Pool.Explosion
import Tabletop.Proofs.Pool.Expression
import Tabletop.Proofs.Pool.Filling
import Tabletop.Proofs.Pool.Neighbours
import Tabletop.Proofs.Pool.OwnName
import Tabletop.Proofs.Pool.Reading
import Tabletop.Proofs.Pool.Spellings
import Tabletop.Proofs.Row.Instant
import Tabletop.Proofs.Text.Classes
import Tabletop.Row.CardTable
import Tabletop.Row.Database
import Tabletop.Row.Field
import Tabletop.Row.Moment
import Tabletop.Row.OrderTable
import Tabletop.Row.Record
import Tabletop.Session
import Tabletop.Settings
import Tabletop.Text.Blank
import Tabletop.Text.Casefold
import Tabletop.Text.CharRange
import Tabletop.Text.Digit
import Tabletop.Text.Letter
import Tabletop.Text.Lowercase
import Tabletop.Text.Printable
import Tabletop.Text.Quoted
