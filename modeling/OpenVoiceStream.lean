import OpenVoiceStream.WorkerIO.Slots
import OpenVoiceStream.AsrInferGate
import OpenVoiceStream.V2v.Asr.Finals
import OpenVoiceStream.V2v.Asr.QueueMarker
import OpenVoiceStream.V2v.Asr.Aborts
import OpenVoiceStream.V2v.Asr.HandOver
import OpenVoiceStream.V2v.Asr.SpeakerAudio
import OpenVoiceStream.Translate.Interpreter
import OpenVoiceStream.Agent.ToolRound
import OpenVoiceStream.AsrSegmenter.Decode
import OpenVoiceStream.Backend.InUse
import OpenVoiceStream.Backend.Stuck
import OpenVoiceStream.ProfileLoader.Owners
import OpenVoiceStream.ProfileLoader.Atomic
import OpenVoiceStream.ProfileLoader.History
import OpenVoiceStream.ProfileLoader.Engines
import OpenVoiceStream.Backend.Rollback
import OpenVoiceStream.V2v.Tts.Aborts
import OpenVoiceStream.V2v.Tts.Teardown
import OpenVoiceStream.V2v.Admission.Release
import OpenVoiceStream.V2v.Realtime.Lifecycle
import OpenVoiceStream.Capability.Admission
import OpenVoiceStream.WorkerIO.Delivery
import OpenVoiceStream.Execution.Decode
import OpenVoiceStream.TtsSpeakers.BuiltIn
import OpenVoiceStream.Agent.Trim
import OpenVoiceStream.AsrStream.Partition
import OpenVoiceStream.AsrSlots.Serial
import OpenVoiceStream.Actions.Save
import OpenVoiceStream.HfArtifacts.Resume
import OpenVoiceStream.SparkVoices.Settled
import OpenVoiceStream.SparkVoices.Power
import OpenVoiceStream.SparkVoices.Registry.Refines
import OpenVoiceStream.Wyoming.Stt
import OpenVoiceStream.Wyoming.Tts
import OpenVoiceStream.Agent.DialogueTurn
import OpenVoiceStream.EngineResolver.Refusal
import OpenVoiceStream.EngineResolver.Provenance
import OpenVoiceStream.Arm.Motion
import OpenVoiceStream.Arm.Owned
import OpenVoiceStream.Arm.Stopped
import OpenVoiceStream.Agent.WholeTurns
import OpenVoiceStream.AsrSegmenter.Cover
import OpenVoiceStream.V2v.Tts.LowLatencySpeech
import OpenVoiceStream.V2v.Tts.Sentences
import OpenVoiceStream.AsrSegmenter.Join
import OpenVoiceStream.Rk1828.Tools
import OpenVoiceStream.Rk1828.Aligned
import OpenVoiceStream.Rk1828.Answers
import OpenVoiceStream.Rk1828.Spans
import OpenVoiceStream.Rk1828.LineBytes
import OpenVoiceStream.V2v.Endpoint
import OpenVoiceStream.Agent.VadGate.Utterances
import OpenVoiceStream.Diarization.SpanChunks
import OpenVoiceStream.Coordinator.Residency
import OpenVoiceStream.LeafComposition.Closed
import OpenVoiceStream.LeafComposition.Env
import OpenVoiceStream.Agent.Llm.Retry
import OpenVoiceStream.Agent.SlvClient.Reader
import OpenVoiceStream.Agent.SlvClient.Generation
import OpenVoiceStream.AsrWorker.Lanes
import OpenVoiceStream.AsrWorker.Lines
import OpenVoiceStream.AsrWorker.Audio
import OpenVoiceStream.AsrWorker.PcmText
import OpenVoiceStream.AsrWorker.HalfFloats
import OpenVoiceStream.Agent.LlmAvailability
import OpenVoiceStream.Agent.Playback
import OpenVoiceStream.Arm.Gripper.Lost
import OpenVoiceStream.Arm.Gripper.Settles
import OpenVoiceStream.Arm.Gripper.Force
import OpenVoiceStream.V2v.Realtime.Provider
import OpenVoiceStream.Agent.ModeManager
import OpenVoiceStream.Agent.AssistantDone.Ends
import OpenVoiceStream.HfArtifacts.Unpack
import OpenVoiceStream.HfArtifacts.Extract
import OpenVoiceStream.OpenaiCompat.Wav
import OpenVoiceStream.Wyoming.SameClauses
import OpenVoiceStream.Agent.CaptureTaps
import OpenVoiceStream.V2v.Realtime.Relay
