import Telemetry.Broadcast.Station
import Telemetry.Main
import Telemetry.Proofs.Broadcast.Accounting
import Telemetry.Proofs.Broadcast.Installing
import Telemetry.Proofs.Broadcast.Permits
import Telemetry.Proofs.Collector.Demultiplexing
import Telemetry.Proofs.Collector.Draining
import Telemetry.Proofs.Collector.Reachability
import Telemetry.Proofs.Collector.Relaying
import Telemetry.Proofs.Packet.Corruption
import Telemetry.Proofs.Wire.Decoding
import Telemetry.Proofs.Packet.Fewest
import Telemetry.Proofs.Address.Written
import Telemetry.Proofs.Text.Decimal
import Telemetry.Proofs.Text.Separated
import Telemetry.Proofs.Collector.Lines
import Telemetry.Proofs.Config.Reloading
import Telemetry.Proofs.Wire.Packing
import Telemetry.Proofs.Wire.Puts
import Telemetry.Proofs.Agent.Rounds
import Telemetry.Proofs.Config.Acceptance
import Telemetry.Proofs.Config.SeriesFiles
import Telemetry.Proofs.Wire.Versions
import Telemetry.Proofs.Config.Keeping
import Telemetry.Proofs.Stream.Notation
import Telemetry.Proofs.Stream.Records
import Telemetry.Proofs.Text.Numeral
import Telemetry.Proofs.Text.Columns
import Telemetry.Proofs.Broadcast.Registrations
