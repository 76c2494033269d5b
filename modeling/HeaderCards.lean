import HeaderCards.Card.Writer
import HeaderCards.Main
import HeaderCards.Proofs.Header.Blocks
import HeaderCards.Proofs.Header.Prototypes
import HeaderCards.Proofs.Card.Parts
import HeaderCards.Proofs.Card.Reading
import HeaderCards.Proofs.Card.Written
import HeaderCards.Proofs.Text.Block
import HeaderCards.Proofs.Text.Lines
import HeaderCards.Proofs.Card.Column
import HeaderCards.Proofs.Card.Found
import HeaderCards.Proofs.Card.RoundTrip
import HeaderCards.Proofs.Text.Replace
import HeaderCards.Proofs.Text.Words
import HeaderCards.Proofs.Prototype.Call
import HeaderCards.Proofs.Prototype.TypeText
import HeaderCards.Proofs.Prototype.Printed
import HeaderCards.Proofs.Prototype.Printable
import HeaderCards.Proofs.Header.Bounds
import HeaderCards.Proofs.Header.Listing
import HeaderCards.Proofs.Binding.Bare
import HeaderCards.Proofs.Card.Agreement
import HeaderCards.Proofs.Collection.OwnCard
import HeaderCards.Proofs.Catalog.Documentation
import HeaderCards.Proofs.Catalog.ForeignCode
import HeaderCards.Proofs.Header.Openings
import HeaderCards.Proofs.Header.Concatenation
import HeaderCards.Proofs.CommandLine.AllOrNothing
import HeaderCards.Proofs.Card.Attribution
import HeaderCards.Proofs.Prototype.Gluing
import HeaderCards.Proofs.Prototype.Grammar
import HeaderCards.Proofs.Prototype.Spelling
import HeaderCards.Proofs.Prototype.Breaks
import HeaderCards.Proofs.Header.Region
import HeaderCards.Proofs.Header.Layout
import HeaderCards.Proofs.Header.Wrapping
import HeaderCards.Proofs.Header.Noise
import HeaderCards.Proofs.Collection.Extraction
import HeaderCards.Proofs.Card.Surroundings
import HeaderCards.Proofs.Pairing
import HeaderCards.Proofs.Catalog.Coverage
import HeaderCards.Proofs.Collection.Filters
import HeaderCards.Proofs.Binding.Known
import HeaderCards.Proofs.Catalog.Bindings
import HeaderCards.Proofs.Catalog.Items
import HeaderCards.Proofs.Text.Paragraphs
import HeaderCards.Proofs.Text.Indentation
import HeaderCards.Proofs.Card.Shape
import HeaderCards.Proofs.Binding.Identifiers
import HeaderCards.Proofs.Card.Unfinished
import HeaderCards.Proofs.Markdown
