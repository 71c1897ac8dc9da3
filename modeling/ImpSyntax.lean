import ImpSyntax.Cursor
import ImpSyntax.Main
import ImpSyntax.Source.Reader
import ImpSyntax.Proofs.CanonicalText
import ImpSyntax.Proofs.Grammar.KindDirected
import ImpSyntax.Proofs.Grammar.ViablePrefix
import ImpSyntax.Proofs.Report
import ImpSyntax.Proofs.RoundTrip
import ImpSyntax.Proofs.Source.Elements
import ImpSyntax.Proofs.Source.Unreadable
import ImpSyntax.Proofs.Formatting
import ImpSyntax.Proofs.Grammar.Nesting
import ImpSyntax.Proofs.Grammar.Termination
import ImpSyntax.Proofs.Grammar.OuterOperator
import ImpSyntax.Proofs.Grammar.Shape
import ImpSyntax.Proofs.Cursor.Place
import ImpSyntax.Proofs.Grammar.Production
import ImpSyntax.Proofs.Cursor.StoredTokens
import ImpSyntax.Proofs.Cursor.Locality
import ImpSyntax.Proofs.Cursor.Run
import ImpSyntax.Proofs.Reading
import ImpSyntax.Proofs.MessageCode
import ImpSyntax.Proofs.Source.Scanner
import ImpSyntax.Proofs.Number.Conversion
