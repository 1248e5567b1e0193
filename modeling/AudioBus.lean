import AudioBus.Bus.Recorder
import AudioBus.Codec.Records
import AudioBus.Document.Config
import AudioBus.Document.Reader
import AudioBus.Host.Description
import AudioBus.Proofs.Address
import AudioBus.Proofs.Binary.Arithmetic
import AudioBus.Proofs.Binary.Rounding
import AudioBus.Proofs.Bus.Cadence
import AudioBus.Proofs.Bus.Contract
import AudioBus.Proofs.Bus.Fifo
import AudioBus.Proofs.Codec.RoundTrip
import AudioBus.Proofs.Codec.Truncation
import AudioBus.Proofs.Endpoint.Meeting
import AudioBus.Proofs.Loopback.Return
import AudioBus.Proofs.Loopback.Sound
import AudioBus.Proofs.Mixer.Cutting
import AudioBus.Proofs.Mixer.Lead
import AudioBus.Proofs.Mixer.Mixdown
import AudioBus.Proofs.Mixer.Solo
import AudioBus.Proofs.Receiver.Agreement
import AudioBus.Proofs.Receiver.Binding
import AudioBus.Proofs.Receiver.Creation
import AudioBus.Proofs.Ring.Contents
import AudioBus.Proofs.Ring.Cutting
import AudioBus.Proofs.Ring.History
import AudioBus.Proofs.Ring.Outcome
import AudioBus.Proofs.Signature
import AudioBus.Proofs.Table
import AudioBus.Proofs.Transmitter.OnBus
import AudioBus.Proofs.Transmitter.Place
import AudioBus.Proofs.Transmitter.Protocol
import AudioBus.Proofs.Transmitter.Punctual
import AudioBus.Proofs.Transmitter.Session
import AudioBus.Proofs.Transmitter.Turns
import AudioBus.Proofs.Venue.Basic
import AudioBus.Proofs.Venue.Isolation
import AudioBus.Proofs.Venue.Registry
import AudioBus.Proofs.Venue.Streams
import AudioBus.Proofs.Venue.Voices
import AudioBus.Proofs.Mixer.Portions
import AudioBus.Proofs.Mixer.Interleaving
import AudioBus.Proofs.Bus.Cascade
import AudioBus.Proofs.Transmitter.Interruption
import AudioBus.Proofs.Mixer.Consumption
import AudioBus.Proofs.Stream.Timeline
import AudioBus.Proofs.Mixer.Coordinates
import AudioBus.Proofs.Codec.Locality
import AudioBus.Proofs.Codec.Records
import AudioBus.Proofs.Codec.Shortest
import AudioBus.Proofs.Codec.Normal
import AudioBus.Proofs.Ring.Strides
